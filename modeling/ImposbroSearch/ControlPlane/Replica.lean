import ImposbroSearch.Foundation.Runs
import Mathlib.Logic.Function.Basic
import Mathlib.Order.Basic

/-!
# Replicas of the control plane

The committed control-plane state is one row that a commit replaces by comparing
its revision. Each replica holds a runtime copy that requests mutate in place,
and a state manager with the revision it believes to be current and a cache of
the routing rollouts.

An admin request reads its expected revision, snapshots the runtime, mutates it,
saves it, and then marks the new revision as applied or restores its snapshot. A
reload reads the row and swaps the runtime. All these steps interleave.

Two components are history: which state was committed at each revision and by
which request, and where the content of a runtime comes from. No step reads them.
-/

namespace ImposbroSearch.ControlPlane

variable {Config Rollout ι : Type}

/-- The persisted state: the rollouts, and everything else. -/
@[ext] structure ControlPlaneState (Config Rollout : Type) where
  config : Config
  routingRollouts : List (String × Rollout)

/-- Where a runtime's content comes from: it is the state committed at a revision,
or that state with one request's mutation, or neither is known. -/
inductive Provenance where
  | committed (revision : ℕ)
  | patched (revision : ℕ) (request : ℕ)
  | unknown
  deriving DecidableEq, Repr

/-- The provenance after a request's mutation in place. -/
def Provenance.patch (id : ℕ) : Provenance → Provenance
  | committed revision => patched revision id
  | _ => unknown

/-- `FederationRuntimeSnapshot` -/
structure Runtime (Config Rollout : Type) where
  revision : ℕ
  state : ControlPlaneState Config Rollout
  provenance : Provenance

inductive Stage (Config Rollout : Type) where
  | begun
  | snapshotted (snapshot : Runtime Config Rollout)
  | mutated (snapshot : Runtime Config Rollout)
  | saved
  | rejected (snapshot : Runtime Config Rollout)
  | finished

/-- An admin mutation on its way. -/
structure AdminRequest (Config Rollout : Type) where
  mutation : ControlPlaneState Config Rollout → ControlPlaneState Config Rollout
  expectedRevision : ℕ
  stage : Stage Config Rollout

structure Replica (Config Rollout : Type) where
  currentRevision : ℕ
  routingRollouts : List (String × Rollout)
  runtime : Runtime Config Rollout
  requests : ℕ → Option (AdminRequest Config Rollout)
  /-- What `load_state` returned to a reload that has not swapped yet. -/
  loaded : Option (ℕ × Config)

/-- A request that committed a revision. -/
structure Committer (Config Rollout ι : Type) where
  replica : ι
  request : ℕ
  mutation : ControlPlaneState Config Rollout → ControlPlaneState Config Rollout

/-- The row holds `revision` and `committed revision`. -/
structure System (Config Rollout ι : Type) where
  revision : ℕ
  committed : ℕ → ControlPlaneState Config Rollout
  committers : ℕ → Option (Committer Config Rollout ι)
  replicas : ι → Replica Config Rollout

/-- How saving ends: it reaches the compare-and-set, the store fails and
`save_state` returns false, or an exception escapes it. -/
inductive SaveOutcome where
  | reaches
  | fails
  | raises
  deriving DecidableEq, Repr

inductive LoadOutcome where
  | loads
  | unreadable
  | secretsInvalid
  deriving DecidableEq, Repr

inductive RequestAction (Config Rollout : Type) where
  | start (mutation : ControlPlaneState Config Rollout → ControlPlaneState Config Rollout)
      (ifMatch : Option ℕ)
  | refuse
  | snapshot
  | mutate
  | save (outcome : SaveOutcome)
  | markApplied
  | restore

inductive ReplicaAction (Config Rollout : Type) where
  | request (id : ℕ) (action : RequestAction Config Rollout)
  | loadState (outcome : LoadOutcome)
  | swap (raises : Bool)

structure Action (Config Rollout ι : Type) where
  replica : ι
  action : ReplicaAction Config Rollout

namespace Replica

variable (replica : Replica Config Rollout)

def setStage (id : ℕ) (request : AdminRequest Config Rollout) (stage : Stage Config Rollout) :
    Replica Config Rollout :=
  { replica with
    requests := Function.update replica.requests id (some { request with stage := stage }) }

/-- A new request, with the revision it expects to replace. -/
def start (id : ℕ)
    (mutation : ControlPlaneState Config Rollout → ControlPlaneState Config Rollout) :
    Replica Config Rollout :=
  replica.setStage id ⟨mutation, replica.currentRevision, .begun⟩ .begun

/-- The mutation, in place. -/
def mutateRuntime (id : ℕ)
    (mutation : ControlPlaneState Config Rollout → ControlPlaneState Config Rollout) :
    Replica Config Rollout :=
  { replica with
    runtime :=
      { replica.runtime with
        state := mutation replica.runtime.state
        provenance := replica.runtime.provenance.patch id } }

/-- The state that `_persist_state_or_500` saves: a runtime without rollouts lets
`save_state` fall back to the cached ones. -/
def savedState : ControlPlaneState Config Rollout where
  config := replica.runtime.state.config
  routingRollouts :=
    if replica.runtime.state.routingRollouts.isEmpty then replica.routingRollouts
    else replica.runtime.state.routingRollouts

/-- The cached rollouts do not leak into what is saved. -/
def KeepsRollouts : Prop :=
  replica.runtime.state.routingRollouts.isEmpty = true → replica.routingRollouts.isEmpty = true

instance : Decidable replica.KeepsRollouts := inferInstanceAs (Decidable (_ → _))

/-- What a successful commit leaves on the replica. -/
def afterCommit (revision : ℕ) : Replica Config Rollout :=
  { replica with
    currentRevision := revision
    routingRollouts := replica.savedState.routingRollouts
    runtime :=
      { replica.runtime with
        provenance := if replica.KeepsRollouts then .committed revision else .unknown } }

/-- `mark_applied_revision`, which raises rather than move backwards. -/
def markAppliedRevision : Replica Config Rollout :=
  if replica.currentRevision < replica.runtime.revision then replica
  else { replica with runtime := { replica.runtime with revision := replica.currentRevision } }

end Replica

namespace System

variable [DecidableEq ι] (system : System Config Rollout ι)

def setReplica (site : ι) (replica : Replica Config Rollout) : System Config Rollout ι :=
  { system with replicas := Function.update system.replicas site replica }

/-- The commit of what the replica saves, once the compare-and-set has passed. -/
def commit (site : ι) (id : ℕ) (request : AdminRequest Config Rollout) :
    System Config Rollout ι where
  revision := system.revision + 1
  committed := Function.update system.committed (system.revision + 1)
    (system.replicas site).savedState
  committers := Function.update system.committers (system.revision + 1)
    (some ⟨site, id, request.mutation⟩)
  replicas := Function.update system.replicas site
    (((system.replicas site).afterCommit (system.revision + 1)).setStage id request .saved)

/-- `_persist_state_or_500` up to the answer of `save_state`. -/
def save (site : ι) (id : ℕ) (request : AdminRequest Config Rollout)
    (snapshot : Runtime Config Rollout) (outcome : SaveOutcome) : System Config Rollout ι :=
  let replica := system.replicas site
  match outcome with
  | .raises => system.setReplica site (replica.setStage id request .finished)
  | .fails => system.setReplica site (replica.setStage id request (.rejected snapshot))
  | .reaches =>
    if request.expectedRevision = system.revision then system.commit site id request
    else system.setReplica site (replica.setStage id request (.rejected snapshot))

/-- One step of one request. -/
def requestStep (site : ι) (id : ℕ) (action : RequestAction Config Rollout) :
    System Config Rollout ι :=
  let replica := system.replicas site
  match replica.requests id with
  | none =>
    match action with
    | .start mutation ifMatch =>
      -- `_expected_revision` refuses an `If-Match` other than the current revision
      if ifMatch.getD replica.currentRevision = replica.currentRevision then
        system.setReplica site (replica.start id mutation)
      else system
    | _ => system
  | some request =>
    match request.stage, action with
    | .begun, .refuse => system.setReplica site (replica.setStage id request .finished)
    | .begun, .snapshot =>
      system.setReplica site (replica.setStage id request (.snapshotted replica.runtime))
    | .snapshotted _, .refuse => system.setReplica site (replica.setStage id request .finished)
    | .snapshotted snapshot, .mutate =>
      system.setReplica site ((replica.mutateRuntime id request.mutation).setStage id request
        (.mutated snapshot))
    | .mutated snapshot, .save outcome => system.save site id request snapshot outcome
    | .saved, .markApplied =>
      system.setReplica site (replica.markAppliedRevision.setStage id request .finished)
    | .rejected snapshot, .restore =>
      system.setReplica site ({ replica with runtime := snapshot }.setStage id request .finished)
    | _, _ => system

/-- `load_state`: the revision is taken over before the secrets are checked. -/
def loadState (site : ι) (outcome : LoadOutcome) : System Config Rollout ι :=
  let replica := system.replicas site
  let state := system.committed system.revision
  match outcome with
  | .unreadable => system.setReplica site { replica with loaded := none }
  | .secretsInvalid =>
    system.setReplica site { replica with currentRevision := system.revision, loaded := none }
  | .loads =>
    system.setReplica site
      { replica with
        currentRevision := system.revision
        routingRollouts := state.routingRollouts
        loaded := some (system.revision, state.config) }

/-- `reload_from_state`: the loaded configuration, with the rollouts and the
revision that the state manager has by now. -/
def swap (site : ι) (raises : Bool) : System Config Rollout ι :=
  let replica := system.replicas site
  match replica.loaded with
  | none => system
  | some (revision, config) =>
    if raises then system.setReplica site { replica with loaded := none }
    else
      system.setReplica site
        { replica with
          loaded := none
          runtime :=
            { revision := replica.currentRevision
              state := ⟨config, replica.routingRollouts⟩
              provenance :=
                if revision = replica.currentRevision then .committed revision else .unknown } }

end System

/-- One step of the control plane. -/
def controlPlaneStep [DecidableEq ι] (system : System Config Rollout ι)
    (action : Action Config Rollout ι) : System Config Rollout ι :=
  match action.action with
  | .request id requestAction => system.requestStep action.replica id requestAction
  | .loadState outcome => system.loadState action.replica outcome
  | .swap raises => system.swap action.replica raises

/-! ## Reading a replica back -/

section Read

variable {replica : Replica Config Rollout} {request : AdminRequest Config Rollout}
  {stage : Stage Config Rollout} {id other : ℕ}

namespace Replica

@[simp] theorem setStage_self :
    (replica.setStage id request stage).requests id = some { request with stage := stage } :=
  Function.update_self _ _ _

theorem setStage_of_ne (distinct : other ≠ id) :
    (replica.setStage id request stage).requests other = replica.requests other :=
  Function.update_of_ne distinct _ _

@[simp] theorem setStage_runtime :
    (replica.setStage id request stage).runtime = replica.runtime := rfl

@[simp] theorem setStage_currentRevision :
    (replica.setStage id request stage).currentRevision = replica.currentRevision := rfl

@[simp] theorem setStage_routingRollouts :
    (replica.setStage id request stage).routingRollouts = replica.routingRollouts := rfl

@[simp] theorem setStage_loaded :
    (replica.setStage id request stage).loaded = replica.loaded := rfl

end Replica

namespace System

variable [DecidableEq ι] {system : System Config Rollout ι} {site elsewhere : ι}

@[simp] theorem setReplica_self : (system.setReplica site replica).replicas site = replica :=
  Function.update_self _ _ _

theorem setReplica_of_ne (distinct : elsewhere ≠ site) :
    (system.setReplica site replica).replicas elsewhere = system.replicas elsewhere :=
  Function.update_of_ne distinct _ _

@[simp] theorem setReplica_revision : (system.setReplica site replica).revision = system.revision :=
  rfl

@[simp] theorem setReplica_committed :
    (system.setReplica site replica).committed = system.committed := rfl

@[simp] theorem setReplica_committers :
    (system.setReplica site replica).committers = system.committers := rfl

@[simp] theorem commit_self : (system.commit site id request).replicas site =
    ((system.replicas site).afterCommit (system.revision + 1)).setStage id request .saved :=
  Function.update_self _ _ _

theorem commit_of_ne (distinct : elsewhere ≠ site) :
    (system.commit site id request).replicas elsewhere = system.replicas elsewhere :=
  Function.update_of_ne distinct _ _

@[simp] theorem commit_revision : (system.commit site id request).revision = system.revision + 1 :=
  rfl

theorem commit_committed_of_le {revision : ℕ} (le : revision ≤ system.revision) :
    (system.commit site id request).committed revision = system.committed revision :=
  Function.update_of_ne (by omega) _ _

@[simp] theorem commit_committed :
    (system.commit site id request).committed (system.revision + 1) =
      (system.replicas site).savedState :=
  Function.update_self _ _ _

@[simp] theorem commit_committers : (system.commit site id request).committers
    (system.revision + 1) = some ⟨site, id, request.mutation⟩ :=
  Function.update_self _ _ _

theorem commit_committers_of_ne {revision : ℕ} (distinct : revision ≠ system.revision + 1) :
    (system.commit site id request).committers revision = system.committers revision :=
  Function.update_of_ne distinct _ _

end System

end Read

/-! ## What a step can do -/

/-- Everything one step can do, with what it found. -/
inductive Transition [DecidableEq ι] (system : System Config Rollout ι) (site : ι) :
    ReplicaAction Config Rollout → System Config Rollout ι → Prop
  | idle (action : ReplicaAction Config Rollout) : Transition system site action system
  | start (id : ℕ) (mutation : ControlPlaneState Config Rollout → ControlPlaneState Config Rollout)
      (ifMatch : Option ℕ) (fresh : (system.replicas site).requests id = none) :
      Transition system site (.request id (.start mutation ifMatch))
        (system.setReplica site ((system.replicas site).start id mutation))
  | refuse (id : ℕ) (request : AdminRequest Config Rollout)
      (found : (system.replicas site).requests id = some request)
      (unmutated : request.stage = .begun ∨ ∃ snapshot, request.stage = .snapshotted snapshot) :
      Transition system site (.request id .refuse)
        (system.setReplica site ((system.replicas site).setStage id request .finished))
  | snapshot (id : ℕ) (request : AdminRequest Config Rollout)
      (found : (system.replicas site).requests id = some request)
      (stage : request.stage = .begun) :
      Transition system site (.request id .snapshot)
        (system.setReplica site ((system.replicas site).setStage id request
          (.snapshotted (system.replicas site).runtime)))
  | mutate (id : ℕ) (request : AdminRequest Config Rollout) (snapshot : Runtime Config Rollout)
      (found : (system.replicas site).requests id = some request)
      (stage : request.stage = .snapshotted snapshot) :
      Transition system site (.request id .mutate)
        (system.setReplica site (((system.replicas site).mutateRuntime id request.mutation).setStage id
          request (.mutated snapshot)))
  | escape (id : ℕ) (request : AdminRequest Config Rollout) (snapshot : Runtime Config Rollout)
      (found : (system.replicas site).requests id = some request)
      (stage : request.stage = .mutated snapshot) :
      Transition system site (.request id (.save .raises))
        (system.setReplica site ((system.replicas site).setStage id request .finished))
  | reject (id : ℕ) (request : AdminRequest Config Rollout) (snapshot : Runtime Config Rollout)
      (outcome : SaveOutcome) (found : (system.replicas site).requests id = some request)
      (stage : request.stage = .mutated snapshot) :
      Transition system site (.request id (.save outcome))
        (system.setReplica site ((system.replicas site).setStage id request (.rejected snapshot)))
  | commit (id : ℕ) (request : AdminRequest Config Rollout) (snapshot : Runtime Config Rollout)
      (found : (system.replicas site).requests id = some request)
      (stage : request.stage = .mutated snapshot)
      (matching : request.expectedRevision = system.revision) :
      Transition system site (.request id (.save .reaches)) (system.commit site id request)
  | markApplied (id : ℕ) (request : AdminRequest Config Rollout)
      (found : (system.replicas site).requests id = some request)
      (stage : request.stage = .saved) :
      Transition system site (.request id .markApplied)
        (system.setReplica site ((system.replicas site).markAppliedRevision.setStage id request .finished))
  | restore (id : ℕ) (request : AdminRequest Config Rollout) (snapshot : Runtime Config Rollout)
      (found : (system.replicas site).requests id = some request)
      (stage : request.stage = .rejected snapshot) :
      Transition system site (.request id .restore)
        (system.setReplica site ({ system.replicas site with runtime := snapshot }.setStage id request
          .finished))
  | load (outcome : LoadOutcome) :
      Transition system site (.loadState outcome) (system.loadState site outcome)
  | swap (raises : Bool) (revision : ℕ) (config : Config)
      (found : (system.replicas site).loaded = some (revision, config)) :
      Transition system site (.swap raises) (system.swap site raises)

theorem controlPlaneStep_transition [DecidableEq ι] (system : System Config Rollout ι)
    (action : Action Config Rollout ι) :
    Transition system action.replica action.action (controlPlaneStep system action) := by
  obtain ⟨site, action⟩ := action
  cases action with
  | loadState outcome => exact .load outcome
  | swap raises =>
      cases found : (system.replicas site).loaded with
      | none =>
          have idle : controlPlaneStep system ⟨site, .swap raises⟩ = system := by
            simp only [controlPlaneStep, System.swap, found]
          rw [idle]
          exact .idle _
      | some loaded => exact .swap raises loaded.1 loaded.2 found
  | request id action =>
      show Transition system site (.request id action) (system.requestStep site id action)
      unfold System.requestStep
      cases found : (system.replicas site).requests id with
      | none =>
          simp only [found]
          cases action with
          | start mutation ifMatch =>
              simp only
              split_ifs
              · exact .start id mutation ifMatch found
              · exact .idle _
          | _ => exact .idle _
      | some request =>
          simp only [found]
          split
          next stage => exact .refuse id request found (Or.inl stage)
          next stage => exact .snapshot id request found stage
          next saved stage => exact .refuse id request found (Or.inr ⟨saved, stage⟩)
          next saved stage => exact .mutate id request saved found stage
          next saved outcome stage =>
            cases outcome with
            | raises => exact .escape id request saved found stage
            | fails => exact .reject id request saved .fails found stage
            | reaches =>
                simp only [System.save]
                split_ifs with matching
                · exact .commit id request saved found stage matching
                · exact .reject id request saved .reaches found stage
          next stage => exact .markApplied id request found stage
          next saved stage => exact .restore id request saved found stage
          next => exact .idle _

end ImposbroSearch.ControlPlane
