import ImposbroSearch.Foundation.Runs
import ImposbroSearch.Routing.Runtime

/-!
# The admin operations that routing depends on

Every accepted operation commits one new control-plane state: the registered
clusters, the stored policies, and the rollouts. Requests that a service outside
the control plane refuses (an unreachable cluster, a collection its provider does
not know, Kafka evidence that cannot be measured) change nothing and are left out.
Each operation happens later than the one before it.
-/

namespace ImposbroSearch.Routing

open ImposbroSearch.Foundation
open ImposbroSearch.Indexing (ClusterName)

variable {Doc : Type}

/-- What an endpoint refuses an operation with. -/
inductive AdminError where
  | invalidName
  | clusterRegistered (name : ClusterName)
  | defaultClusterKept
  | clusterNotFound (name : ClusterName)
  | clusterInUseAsDefault (collection : String)
  | clusterInUseByRule (collection : String)
  | activeRolloutBlocksDelete (rolloutId : String) (phase : RolloutPhase)
  | safeRoutingRolloutRequired
  | clustersNotRegistered (missing : List ClusterName)
  | collectionTombstoned
  | rolloutAlreadyActive (rolloutId : String) (phase : RolloutPhase)
  | rolloutIdTaken
  | rolloutNotFound
  | rollout (error : RolloutError)
  deriving DecidableEq, Repr

/-- The settings the endpoints read. -/
structure AdminSettings where
  /-- `DEPLOYMENT_PROFILE == "enterprise"` -/
  enterprise : Bool
  /-- `ROUTING_CUTOVER_MAX_KAFKA_LAG` -/
  maxKafkaLag : ℕ
  deriving DecidableEq, Repr

inductive AdminOperation (Doc : Type) where
  | registerCluster (name : ClusterName)
  | unregisterCluster (name : ClusterName)
  | createCollection (collection : String)
  | deleteCollection (collection : String)
  | setRoutingRules (collection : String) (policy : RoutingRules Doc)
  | deleteRoutingRules (collection : String)
  | createRollout (collection : String) (candidate : RoutingRules Doc)
      (rollbackWindowSeconds : ℕ) (rolloutId : String)
  | rollout (rolloutId : String) (operation : RolloutOperation)

/-- `routing_rules[collection] = entry` -/
def setEntry (collection : String) (entry : RoutingEntry Doc) :
    List (String × RoutingEntry Doc) → List (String × RoutingEntry Doc)
  | [] => [(collection, entry)]
  | (key, old) :: rules =>
    if key = collection then (collection, entry) :: rules
    else (key, old) :: setEntry collection entry rules

@[simp] theorem lookup_setEntry (collection other : String) (entry : RoutingEntry Doc)
    (rules : List (String × RoutingEntry Doc)) :
    (setEntry collection entry rules).lookup other =
      if other = collection then some entry else rules.lookup other := by
  induction rules with
  | nil =>
      by_cases same : other = collection
      · simp [setEntry, same]
      · simp [setEntry, same, List.lookup, beq_eq_false_iff_ne.mpr same]
  | cons head rules ih =>
      obtain ⟨key, old⟩ := head
      unfold setEntry
      by_cases here : key = collection
      · rw [if_pos here]
        by_cases same : other = collection
        · simp [same]
        · have differs : (other == key) = false := by simpa [here] using same
          simp [List.lookup, beq_eq_false_iff_ne.mpr same, differs, same]
      · rw [if_neg here]
        by_cases same : other = key
        · subst same
          simp [here]
        · simp [List.lookup, beq_eq_false_iff_ne.mpr same, ih]

/-- How an entry uses a cluster, `unregister_cluster`. -/
def RoutingEntry.usage (name : ClusterName) (collection : String) (entry : RoutingEntry Doc) :
    Option AdminError :=
  if entry.policy.defaultCluster = name then some (.clusterInUseAsDefault collection)
  else if entry.policy.rules.any fun rule => name ∈ rule.target.names then
    some (.clusterInUseByRule collection)
  else none

/-- The entry of a collection without rules of its own. -/
def RoutingEntry.reset : RoutingEntry Doc := { policy := .unset }

/-- `unregister_cluster` finds every name of a policy. -/
theorem RoutingEntry.not_mem_of_usage {name : ClusterName} {collection : String}
    {entry : RoutingEntry Doc} (unused : entry.usage name collection = none) :
    name ∉ entry.policy.clusterNames := by
  unfold usage at unused
  split_ifs at unused with byDefault byRule
  intro named
  rcases List.mem_append.mp named with inRule | isDefault
  · obtain ⟨rule, member, target⟩ := List.mem_flatMap.mp inRule
    refine byRule (List.any_eq_true.mpr ⟨rule, member, decide_eq_true ?_⟩)
    revert target
    cases rule.target with
    | cluster single =>
        intro target
        exact (List.mem_filter.mp target).1
    | clusters several =>
        intro target
        exact (List.mem_filter.mp target).1
  · exact byDefault (List.mem_singleton.mp isDefault).symm

namespace RoutingRuntime

variable (runtime : RoutingRuntime Doc)

/-- `federation.register_cluster` -/
def registerCluster (name : ClusterName) : Except AdminError (RoutingRuntime Doc) :=
  if unnamed : name = "" then .error .invalidName
  else if registered : name ∈ runtime.federation.clients then .error (.clusterRegistered name)
  else .ok
    { runtime with
      revision := runtime.revision + 1
      federation := runtime.federation.register name registered unnamed }

/-- What `delete_cluster` refuses. -/
def unregisterRefusal (name : ClusterName) : Option AdminError :=
  if name = "default" then some .defaultClusterKept
  else if name ∉ runtime.federation.clients then some (.clusterNotFound name)
  else runtime.routingRules.findSome? fun entry => entry.2.usage name entry.1

/-- `delete_cluster` -/
def unregisterCluster (name : ClusterName) : Except AdminError (RoutingRuntime Doc) :=
  match runtime.unregisterRefusal name with
  | some error => .error error
  | none => .ok
    { runtime with
      revision := runtime.revision + 1
      federation := runtime.federation.unregister name }

/-- A new entry of `routing_rules`. -/
def withEntry (collection : String) (entry : RoutingEntry Doc) : RoutingRuntime Doc :=
  { runtime with
    revision := runtime.revision + 1
    routingRules := setEntry collection entry runtime.routingRules }

/-- `create_collection` finds no live entry to keep. -/
def Unrouted (collection : String) : Prop :=
  runtime.routingRules.lookup collection = none ∨ runtime.isDisabled collection = true

instance (collection : String) : Decidable (runtime.Unrouted collection) :=
  inferInstanceAs (Decidable (_ ∨ _))

/-- `create_collection`, once the name is acceptable in the profile. -/
def createCollection (collection : String) : Except AdminError (RoutingRuntime Doc) :=
  if runtime.Unrouted collection then .ok (runtime.withEntry collection .reset)
  else .ok { runtime with revision := runtime.revision + 1 }

/-- The rollout of a collection that is not over. -/
def activeRollout (collection : String) : Option (RolloutRecord Doc) :=
  runtime.routingRollouts.find? fun record =>
    record.plan.collection = collection ∧ ¬record.rollout.phase.IsTerminal

/-- `delete_collection`. Its finalizing commit changes no routing. -/
def deleteCollection (collection : String) : Except AdminError (RoutingRuntime Doc) :=
  match runtime.activeRollout collection with
  | some record =>
    .error (.activeRolloutBlocksDelete record.plan.rolloutId record.rollout.phase)
  | none =>
    if runtime.isDisabled collection then .ok { runtime with revision := runtime.revision + 1 }
    else .ok (runtime.withEntry collection { policy := .unset, disabled := true })

/-- What `set_routing_rules` refuses. -/
def rulesRefusal (settings : AdminSettings) (policy : RoutingRules Doc) : Option AdminError :=
  if settings.enterprise then some .safeRoutingRolloutRequired
  else if runtime.federation.missingClusters policy ≠ [] then
    some (.clustersNotRegistered (runtime.federation.missingClusters policy))
  else none

/-- `set_routing_rules` -/
def setRoutingRules (settings : AdminSettings) (collection : String) (policy : RoutingRules Doc) :
    Except AdminError (RoutingRuntime Doc) :=
  match runtime.rulesRefusal settings policy with
  | some error => .error error
  | none => .ok (runtime.withEntry collection { policy })

/-- `delete_routing_rule` -/
def deleteRoutingRules (settings : AdminSettings) (collection : String) :
    Except AdminError (RoutingRuntime Doc) :=
  if settings.enterprise then .error .safeRoutingRolloutRequired
  else .ok (runtime.withEntry collection .reset)

/-- What `create_routing_rollout` refuses. -/
def draftRefusal (collection : String) (candidate : RoutingRules Doc) : Option AdminError :=
  if runtime.isDisabled collection then some .collectionTombstoned
  else
    match runtime.activeRollout collection with
    | some record => some (.rolloutAlreadyActive record.plan.rolloutId record.rollout.phase)
    | none =>
      if runtime.federation.missingClusters candidate ≠ [] then
        some (.clustersNotRegistered (runtime.federation.missingClusters candidate))
      else none

/-- A new draft. -/
def draft (collection : String) (candidate : RoutingRules Doc) (rollbackWindowSeconds : ℕ)
    (rolloutId : String) : RolloutRecord Doc where
  plan :=
    { rolloutId, collection, rollbackWindowSeconds
      activePolicy := runtime.storedPolicy collection
      candidatePolicy := candidate }
  rollout := {}
  updatedAt := runtime.now

/-- `create_routing_rollout`. A `uuid4` is taken to be new. -/
def createRollout (collection : String) (candidate : RoutingRules Doc)
    (rollbackWindowSeconds : ℕ) (rolloutId : String) : Except AdminError (RoutingRuntime Doc) :=
  match runtime.draftRefusal collection candidate with
  | some error => .error error
  | none =>
    if taken : rolloutId ∈ runtime.routingRollouts.map (·.plan.rolloutId) then
      .error .rolloutIdTaken
    else .ok
      { runtime with
        revision := runtime.revision + 1
        routingRollouts := runtime.routingRollouts ++
          [runtime.draft collection candidate rollbackWindowSeconds rolloutId]
        rollouts_nodup := by
          rw [List.map_append, List.nodup_append_comm]
          exact List.nodup_cons.mpr ⟨taken, runtime.rollouts_nodup⟩ }

/-- A record after an operation on the rollout with this id. -/
def revised (rolloutId : String) (updated : RoutingRollout) (record : RolloutRecord Doc) :
    RolloutRecord Doc :=
  if record.plan.rolloutId = rolloutId then
    { record with
      rollout := updated
      updatedAt := runtime.now }
  else record

@[simp] theorem revised_plan (rolloutId : String) (updated : RoutingRollout)
    (record : RolloutRecord Doc) : (runtime.revised rolloutId updated record).plan = record.plan := by
  unfold revised
  split_ifs
  · rfl
  · rfl

/-- `routing_rollouts.get(rollout_id)` -/
def rolloutById (rolloutId : String) : Option (RolloutRecord Doc) :=
  runtime.routingRollouts.find? fun record => record.plan.rolloutId = rolloutId

/-- The commit of an updated rollout; completion also commits the candidate policy. -/
def withRollout (record : RolloutRecord Doc) (updated : RoutingRollout) : RoutingRuntime Doc :=
  { runtime with
    revision := runtime.revision + 1
    routingRules :=
      if updated.phase = .completed then
        setEntry record.plan.collection { policy := record.plan.candidatePolicy }
          runtime.routingRules
      else runtime.routingRules
    routingRollouts :=
      runtime.routingRollouts.map (runtime.revised record.plan.rolloutId updated)
    rollouts_nodup := by
      have same : runtime.routingRollouts.map (fun other =>
          (runtime.revised record.plan.rolloutId updated other).plan.rolloutId) =
          runtime.routingRollouts.map (·.plan.rolloutId) := by simp
      rw [List.map_map]
      exact same ▸ runtime.rollouts_nodup }

/-- `transition_routing_rollout`, and what the reconciler records. -/
def performRollout (settings : AdminSettings) (rolloutId : String)
    (operation : RolloutOperation) : Except AdminError (RoutingRuntime Doc) :=
  match runtime.rolloutById rolloutId with
  | none => .error .rolloutNotFound
  | some record =>
    match record.rollout.perform record.plan.rollbackWindowSeconds settings.maxKafkaLag runtime.now
      operation with
    | .error error => .error (.rollout error)
    | .ok updated => .ok (runtime.withRollout record updated)

/-- One operation. -/
def perform (settings : AdminSettings) :
    AdminOperation Doc → Except AdminError (RoutingRuntime Doc)
  | .registerCluster name => runtime.registerCluster name
  | .unregisterCluster name => runtime.unregisterCluster name
  | .createCollection collection => runtime.createCollection collection
  | .deleteCollection collection => runtime.deleteCollection collection
  | .setRoutingRules collection policy => runtime.setRoutingRules settings collection policy
  | .deleteRoutingRules collection => runtime.deleteRoutingRules settings collection
  | .createRollout collection candidate window rolloutId =>
    runtime.createRollout collection candidate window rolloutId
  | .rollout rolloutId operation => runtime.performRollout settings rolloutId operation

/-- Time passes. -/
def tick (elapsed : ℕ) : RoutingRuntime Doc := { runtime with now := runtime.now + elapsed + 1 }

/-- One operation after some time; a refused one changes nothing. -/
def step (settings : AdminSettings) (runtime : RoutingRuntime Doc)
    (action : ℕ × AdminOperation Doc) : RoutingRuntime Doc :=
  match (runtime.tick action.1).perform settings action.2 with
  | .error _ => runtime.tick action.1
  | .ok updated => updated

/-- What an accepted operation does, by the branch it takes. -/
inductive Performed (settings : AdminSettings) (runtime : RoutingRuntime Doc) :
    AdminOperation Doc → RoutingRuntime Doc → Prop where
  | registerCluster {name : ClusterName} (named : name ≠ "")
      (fresh : name ∉ runtime.federation.clients) :
      Performed settings runtime (.registerCluster name)
        { runtime with
          revision := runtime.revision + 1
          federation := runtime.federation.register name fresh named }
  | unregisterCluster {name : ClusterName} (accepted : runtime.unregisterRefusal name = none) :
      Performed settings runtime (.unregisterCluster name)
        { runtime with
          revision := runtime.revision + 1
          federation := runtime.federation.unregister name }
  | createCollection {collection : String} (unrouted : runtime.Unrouted collection) :
      Performed settings runtime (.createCollection collection)
        (runtime.withEntry collection .reset)
  | keepCollection {collection : String} (routed : ¬runtime.Unrouted collection) :
      Performed settings runtime (.createCollection collection)
        { runtime with revision := runtime.revision + 1 }
  | deleteCollection {collection : String} (idle : runtime.activeRollout collection = none)
      (enabled : runtime.isDisabled collection = false) :
      Performed settings runtime (.deleteCollection collection)
        (runtime.withEntry collection { policy := .unset, disabled := true })
  | keepTombstone {collection : String} (idle : runtime.activeRollout collection = none)
      (disabled : runtime.isDisabled collection = true) :
      Performed settings runtime (.deleteCollection collection)
        { runtime with revision := runtime.revision + 1 }
  | setRoutingRules {collection : String} {policy : RoutingRules Doc}
      (accepted : runtime.rulesRefusal settings policy = none) :
      Performed settings runtime (.setRoutingRules collection policy)
        (runtime.withEntry collection { policy })
  | deleteRoutingRules {collection : String} (open_ : settings.enterprise = false) :
      Performed settings runtime (.deleteRoutingRules collection)
        (runtime.withEntry collection .reset)
  | createRollout {collection : String} {candidate : RoutingRules Doc} {window : ℕ}
      {rolloutId : String} {updated : RoutingRuntime Doc}
      (done : runtime.createRollout collection candidate window rolloutId = .ok updated) :
      Performed settings runtime (.createRollout collection candidate window rolloutId) updated
  | rollout {rolloutId : String} {operation : RolloutOperation} {record : RolloutRecord Doc}
      {rollout : RoutingRollout} (found : runtime.rolloutById rolloutId = some record)
      (performed : record.rollout.perform record.plan.rollbackWindowSeconds settings.maxKafkaLag
        runtime.now operation = .ok rollout) :
      Performed settings runtime (.rollout rolloutId operation)
        (runtime.withRollout record rollout)

variable {runtime} in
/-- **What one accepted operation did.** -/
theorem performed_of_ok {settings : AdminSettings} {operation : AdminOperation Doc}
    {updated : RoutingRuntime Doc} (done : runtime.perform settings operation = .ok updated) :
    Performed settings runtime operation updated := by
  cases operation with
  | registerCluster name =>
      unfold perform registerCluster at done
      simp only at done
      split_ifs at done with unnamed registered
      cases done
      exact .registerCluster unnamed registered
  | unregisterCluster name =>
      unfold perform unregisterCluster at done
      simp only at done
      split at done
      · cases done
      next accepted =>
        cases done
        exact .unregisterCluster accepted
  | createCollection collection =>
      unfold perform createCollection at done
      simp only at done
      split_ifs at done with unrouted
      · cases done
        exact .createCollection unrouted
      · cases done
        exact .keepCollection unrouted
  | deleteCollection collection =>
      unfold perform deleteCollection at done
      simp only at done
      split at done
      · cases done
      next idle =>
        split_ifs at done with disabled
        · cases done
          exact .keepTombstone idle disabled
        · cases done
          exact .deleteCollection idle (by simpa using disabled)
  | setRoutingRules collection policy =>
      unfold perform setRoutingRules at done
      simp only at done
      split at done
      · cases done
      next accepted =>
        cases done
        exact .setRoutingRules accepted
  | deleteRoutingRules collection =>
      unfold perform deleteRoutingRules at done
      simp only at done
      split_ifs at done with enterprise
      cases done
      exact .deleteRoutingRules (by simpa using enterprise)
  | createRollout collection candidate window rolloutId => exact .createRollout done
  | rollout rolloutId operation =>
      unfold perform performRollout at done
      simp only at done
      split at done
      · cases done
      next record found =>
        split at done
        · cases done
        next rollout performed =>
          cases done
          exact .rollout found performed

/-- Registered clusters, and nothing routed yet. -/
def initial (federation : FederationService) : RoutingRuntime Doc where
  revision := 0
  federation := federation
  routingRules := []
  routingRollouts := []
  rollouts_nodup := List.nodup_nil
  now := 0

end RoutingRuntime

end ImposbroSearch.Routing
