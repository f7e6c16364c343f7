import ImposbroSearch.ControlPlane.CommittedUpdates

/-!
# What a rejected request leaves behind

A request mutates the runtime before it knows whether its save will be accepted,
and a rejection is undone by putting the snapshot back. That undoes exactly the
request's own mutation when nothing else has happened to the runtime since the
snapshot, and when the save ends in one of the two ways that the handler expects.
-/

namespace ImposbroSearch.ControlPlane

open ImposbroSearch.Foundation

variable {Config Rollout ι : Type} [DecidableEq ι] {system : System Config Rollout ι} {site : ι}

/-- The request has mutated the runtime and its save has not been accepted. -/
def Stage.Unsettled (stage : Stage Config Rollout) : Prop :=
  ∃ snapshot, stage = .mutated snapshot ∨ stage = .rejected snapshot

/-- Some request of the replica is at a stage that satisfies `P`. -/
def Replica.HasStage (replica : Replica Config Rollout) (P : Stage Config Rollout → Prop) : Prop :=
  ∃ id request, replica.requests id = some request ∧ P request.stage

/-- A restore puts back a snapshot of the state that the runtime was patched from,
under the revision that is still applied. -/
def CleanRestore (replica : Replica Config Rollout) (id : ℕ) (snapshot : Runtime Config Rollout) :
    Prop :=
  replica.runtime.provenance = .patched snapshot.revision id ∧
    snapshot.provenance = .committed snapshot.revision ∧
      replica.runtime.revision = snapshot.revision

/-- On `site`, commits and restores are clean, and no exception other than a
conflict escapes the save of a request that has mutated the runtime. -/
def CleanRequest (site : ι) (system : System Config Rollout ι) (action : Action Config Rollout ι) :
    Prop :=
  action.replica = site → CleanCommit system action ∧
    ∀ id request snapshot, (system.replicas site).requests id = some request →
      (action.action = .request id (.save .raises) → request.stage ≠ .mutated snapshot) ∧
        (action.action = .request id .restore → request.stage = .rejected snapshot →
          CleanRestore (system.replicas site) id snapshot)

/-- The action is not a reload of `site`. -/
def NotReload (site : ι) (action : Action Config Rollout ι) : Prop :=
  action.replica = site → ∃ id step, action.action = .request id step

/-- A runtime is the committed state of the current revision unless a request is
under way, and it is labelled with that revision unless one is about to mark it. -/
structure Undisturbed (replica : Replica Config Rollout) : Prop where
  source : replica.runtime.provenance = .committed replica.currentRevision ∨
    ((replica.runtime.provenance = .unknown ∨
        ∃ id, replica.runtime.provenance = .patched replica.currentRevision id) ∧
      replica.HasStage Stage.Unsettled)
  applied_le : replica.runtime.revision ≤ replica.currentRevision
  marking : replica.runtime.revision = replica.currentRevision ∨ replica.HasStage (· = .saved)

/-- A step on one replica leaves the others as they are. -/
theorem transition_elsewhere {other : ι} {action : ReplicaAction Config Rollout}
    {next : System Config Rollout ι} (moves : Transition system other action next)
    (elsewhere : site ≠ other) : next.replicas site = system.replicas site := by
  cases moves with
  | idle => rfl
  | commit id request snapshot found stage matching => exact System.commit_of_ne elsewhere
  | load outcome => cases outcome <;> exact System.setReplica_of_ne elsewhere
  | swap raises revision config found =>
      simp only [System.swap, found]
      cases raises <;> exact System.setReplica_of_ne elsewhere
  | _ => exact System.setReplica_of_ne elsewhere

namespace Replica.HasStage

variable {replica base : Replica Config Rollout} {P : Stage Config Rollout → Prop} {id : ℕ}
  {request : AdminRequest Config Rollout} {stage : Stage Config Rollout}

omit [DecidableEq ι] in
/-- A request that was not at such a stage may move on. -/
theorem setStage (has : replica.HasStage P) (same : base.requests = replica.requests)
    (other : ∀ request, replica.requests id = some request → ¬P request.stage) :
    (base.setStage id request stage).HasStage P := by
  obtain ⟨holder, held, found, holds⟩ := has
  have distinct : holder ≠ id := by
    rintro rfl
    exact other held found holds
  exact ⟨holder, held, by rw [setStage_of_ne distinct, same, found], holds⟩

theorem of_setStage (holds : P stage) : (replica.setStage id request stage).HasStage P :=
  ⟨id, _, setStage_self, holds⟩

end Replica.HasStage

theorem not_unsettled {stage : Stage Config Rollout}
    (early : stage = .begun ∨ (∃ snapshot, stage = .snapshotted snapshot) ∨ stage = .saved) :
    ¬stage.Unsettled := by
  rintro ⟨snapshot, rfl | rfl⟩
  · rcases early with begun | ⟨_, snapshotted⟩ | saved
    · cases begun
    · cases snapshotted
    · cases saved
  · rcases early with begun | ⟨_, snapshotted⟩ | saved
    · cases begun
    · cases snapshotted
    · cases saved

/-- Moving a request that neither holds the runtime nor waits to mark it. -/
theorem Undisturbed.setStage {replica : Replica Config Rollout} (calm : Undisturbed replica)
    {id : ℕ} {request : AdminRequest Config Rollout} {stage : Stage Config Rollout}
    (early : ∀ request, replica.requests id = some request →
      request.stage = .begun ∨ ∃ snapshot, request.stage = .snapshotted snapshot) :
    Undisturbed (replica.setStage id request stage) where
  source := by
    rcases calm.source with committed | ⟨patched, unsettled⟩
    · exact Or.inl committed
    · refine Or.inr ⟨patched, unsettled.setStage rfl fun request found => not_unsettled ?_⟩
      rcases early request found with begun | snapshotted
      · exact Or.inl begun
      · exact Or.inr (Or.inl snapshotted)
  applied_le := calm.applied_le
  marking := by
    refine calm.marking.imp_right fun saved => saved.setStage rfl fun request found isSaved => ?_
    rcases early request found with begun | ⟨snapshot, snapshotted⟩
    · rw [begun] at isSaved
      cases isSaved
    · rw [snapshotted] at isSaved
      cases isSaved

omit [DecidableEq ι] in
/-- A clean restore goes back to the current revision. -/
theorem CleanRestore.current {replica : Replica Config Rollout} {id : ℕ}
    {snapshot : Runtime Config Rollout} (clean : CleanRestore replica id snapshot)
    (calm : Undisturbed replica) : snapshot.revision = replica.currentRevision := by
  obtain ⟨patched, -, -⟩ := clean
  rcases calm.source with source | ⟨source | ⟨other, source⟩, -⟩
  · rw [patched] at source
    cases source
  · rw [patched] at source
    cases source
  · rw [patched] at source
    injection source

/-- **A clean step leaves the runtime undisturbed.** -/
theorem Undisturbed.step (truthful : Truthful system)
    (calm : Undisturbed (system.replicas site)) {action : Action Config Rollout ι}
    (here : action.replica = site) (reloadFree : NotReload site action)
    (clean : CleanRequest site system action) :
    Undisturbed ((controlPlaneStep system action).replicas site) := by
  obtain ⟨commitClean, requestClean⟩ := clean here
  have moves := controlPlaneStep_transition system action
  obtain ⟨acting, step⟩ := action
  obtain rfl : acting = site := here
  generalize controlPlaneStep system ⟨acting, step⟩ = next at moves ⊢
  cases moves with
  | idle => exact calm
  | start id mutation ifMatch fresh =>
      rw [System.setReplica_self]
      refine calm.setStage fun request found => ?_
      rw [fresh] at found
      cases found
  | refuse id request found unmutated =>
      rw [System.setReplica_self]
      refine calm.setStage fun other again => ?_
      rw [found] at again
      cases again
      exact unmutated
  | snapshot id request found stage =>
      rw [System.setReplica_self]
      refine calm.setStage fun other again => ?_
      rw [found] at again
      cases again
      exact Or.inl stage
  | mutate id request snapshot found stage =>
      rw [System.setReplica_self]
      refine ⟨Or.inr ⟨?_, .of_setStage ⟨snapshot, Or.inl rfl⟩⟩, calm.applied_le, ?_⟩
      · show (system.replicas acting).runtime.provenance.patch id = .unknown ∨
          ∃ other, (system.replicas acting).runtime.provenance.patch id =
            .patched (system.replicas acting).currentRevision other
        rcases calm.source with committed | ⟨unknown | ⟨other, patched⟩, -⟩
        · rw [committed]
          exact Or.inr ⟨id, rfl⟩
        · rw [unknown]
          exact Or.inl rfl
        · rw [patched]
          exact Or.inl rfl
      · refine calm.marking.imp_right fun saved => saved.setStage rfl fun other again isSaved => ?_
        rw [found] at again
        cases again
        rw [stage] at isSaved
        cases isSaved
  | escape id request snapshot found stage =>
      exact absurd stage ((requestClean id request snapshot found).1 rfl)
  | reject id request snapshot outcome found stage =>
      rw [System.setReplica_self]
      refine ⟨?_, calm.applied_le, ?_⟩
      · refine calm.source.imp_right fun patched => ?_
        exact ⟨patched.1, .of_setStage ⟨snapshot, Or.inr rfl⟩⟩
      · refine calm.marking.imp_right fun saved => saved.setStage rfl fun other again isSaved => ?_
        rw [found] at again
        cases again
        rw [stage] at isSaved
        cases isSaved
  | commit id request snapshot found stage matching =>
      obtain ⟨-, keeps⟩ := commitClean id request snapshot rfl found stage matching
      rw [System.commit_self]
      refine ⟨Or.inl (if_pos keeps), ?_, Or.inr (.of_setStage rfl)⟩
      have current := (truthful acting).current_le
      exact Nat.le_succ_of_le (Nat.le_trans calm.applied_le current)
  | markApplied id request found stage =>
      rw [System.setReplica_self]
      have marked : (system.replicas acting).markAppliedRevision =
          { system.replicas acting with
            runtime := { (system.replicas acting).runtime with
              revision := (system.replicas acting).currentRevision } } :=
        if_neg (Nat.not_lt.mpr calm.applied_le)
      rw [marked]
      refine ⟨?_, Nat.le_refl _, Or.inl rfl⟩
      refine calm.source.imp_right fun patched => ⟨patched.1, patched.2.setStage rfl ?_⟩
      intro other again
      rw [found] at again
      cases again
      exact not_unsettled (Or.inr (Or.inr stage))
  | restore id request snapshot found stage =>
      have cleanRestore := (requestClean id request snapshot found).2 rfl stage
      have current := cleanRestore.current calm
      rw [System.setReplica_self]
      refine ⟨Or.inl ?_, Nat.le_of_eq current, Or.inl current⟩
      show snapshot.provenance = .committed (system.replicas acting).currentRevision
      rw [cleanRestore.2.1, current]
  | load outcome =>
      obtain ⟨_, _, impossible⟩ := reloadFree rfl
      cases impossible
  | swap raises revision config found =>
      obtain ⟨_, _, impossible⟩ := reloadFree rfl
      cases impossible

/-- What a clean run keeps about one replica. -/
structure Traceless (site : ι) (system : System Config Rollout ι) : Prop where
  faithful : Faithful (· = site) system
  undisturbed : Undisturbed (system.replicas site)

theorem Traceless.step (traceless : Traceless site system) {action : Action Config Rollout ι}
    (clean : CleanRequest site system action ∧ NotReload site action) :
    Traceless site (controlPlaneStep system action) where
  faithful := traceless.faithful.step fun here => (clean.1 here).1
  undisturbed := by
    by_cases here : action.replica = site
    · exact traceless.undisturbed.step traceless.faithful.truthful here clean.2 clean.1
    · rw [transition_elsewhere (controlPlaneStep_transition system action) fun same =>
        here same.symm]
      exact traceless.undisturbed

section EscapedException

private def counted (state : ControlPlaneState ℕ String) : ControlPlaneState ℕ String :=
  { state with config := state.config + 1 }

end EscapedException

end ImposbroSearch.ControlPlane
