import ImposbroSearch.Routing.Runtime

/-!
# Writes stay within reads

Write routing picks clusters by the content of a document; read fan-out goes to
every cluster a policy names. Both look at the policies of the same rollout phase.
Outside `cutover` and `drain` a phase reads by every policy it writes by, and in
these two it still reads by the candidate policy it writes by.
-/

namespace ImposbroSearch.Routing

open ImposbroSearch.Indexing (ClusterName)

variable {Doc : Type}

namespace RolloutPhase

/-- Only these phases write by a policy they no longer read by. -/
def WritesPastReads (phase : RolloutPhase) : Prop := phase = cutover ∨ phase = drain

instance (phase : RolloutPhase) : Decidable phase.WritesPastReads :=
  inferInstanceAs (Decidable (_ ∨ _))

theorem readModes_of_writeModes {phase : RolloutPhase} (kept : ¬phase.WritesPastReads) :
    phase.writeModes = phase.readModes := by
  unfold WritesPastReads at kept
  cases phase with
  | cutover => exact absurd (Or.inl rfl) kept
  | drain => exact absurd (Or.inr rfl) kept
  | _ => rfl

/-- Every phase writes by some policy that it also reads by. -/
theorem exists_common_mode (phase : RolloutPhase) :
    ∃ mode ∈ phase.writeModes, mode ∈ phase.readModes := by
  cases phase with
  | cutover => exact ⟨.candidate, by decide, by decide⟩
  | drain => exact ⟨.candidate, by decide, by decide⟩
  | completed => exact ⟨.candidate, by decide, by decide⟩
  | _ => exact ⟨.active, by decide, by decide⟩

end RolloutPhase

namespace RoutingRuntime

variable {runtime : RoutingRuntime Doc} {collection : String} {policy : RoutingRules Doc}
  {document : Doc}

/-- The governing rollout, if any, is in a phase that writes past its reads. -/
def WritesPastReads (runtime : RoutingRuntime Doc) (collection : String) : Prop :=
  ∃ record, runtime.rolloutForCollection collection = some record ∧
    record.rollout.phase.WritesPastReads

/-- Every cluster name of a policy is `default` or registered. -/
def Registered (runtime : RoutingRuntime Doc) (policy : RoutingRules Doc) : Prop :=
  ∀ name ∈ policy.clusterNames, name = "default" ∨ name ∈ runtime.federation.clients

instance (policy : RoutingRules Doc) : Decidable (runtime.Registered policy) :=
  inferInstanceAs (Decidable (∀ _ ∈ _, _))

/-- **A read policy is searched wherever its names resolve to.** -/
theorem searched_of_resolve (reads : policy ∈ runtime.routingPolicies collection .read)
    {name cluster : ClusterName} (named : name ∈ policy.clusterNames)
    (resolved : runtime.federation.resolveClusterName name = some cluster) :
    cluster ∈ runtime.clusterNamesForSearch collection := by
  refine mem_clusterNamesForSearch.mpr ⟨policy, reads, ?_⟩
  unfold searchNames
  split_ifs
  · -- Without rules and without a rollout every registered cluster is searched.
    have registered := FederationService.resolveClusterName_mem resolved
    exact ⟨cluster, registered, FederationService.searchCluster_of_mem registered⟩
  · exact ⟨name, named, FederationService.searchCluster_of_resolve resolved⟩

theorem searched_of_target (reads : policy ∈ runtime.routingPolicies collection .read)
    {cluster : ClusterName}
    (target : cluster ∈ runtime.federation.targetsForPolicyDocument policy document) :
    cluster ∈ runtime.clusterNamesForSearch collection := by
  obtain ⟨name, previewed, resolved⟩ := FederationService.mem_targetsForPolicyDocument.mp target
  exact searched_of_resolve reads (policy.previewRouting_subset document name previewed) resolved

/-- A policy with registered names gives every document a target. -/
theorem exists_target (available : runtime.federation.clients ≠ [])
    (registered : runtime.Registered policy) :
    ∃ cluster, cluster ∈ runtime.federation.targetsForPolicyDocument policy document := by
  obtain ⟨name, previewed⟩ := List.exists_mem_of_ne_nil _ (policy.previewRouting_ne_nil document)
  have named := policy.previewRouting_subset document name previewed
  obtain ⟨cluster, resolved⟩ :=
    FederationService.exists_resolveClusterName available (registered name named)
  exact ⟨cluster, FederationService.mem_targetsForPolicyDocument.mpr ⟨name, previewed, resolved⟩⟩

/-- Some policy is in force for reads and for writes. -/
theorem exists_common_policy (enabled : runtime.isDisabled collection = false) :
    ∃ policy ∈ runtime.routingPolicies collection .write,
      policy ∈ runtime.routingPolicies collection .read := by
  unfold routingPolicies
  rw [enabled]
  simp only [Bool.false_eq_true, if_false]
  split
  · exact ⟨_, List.mem_cons_self, List.mem_cons_self⟩
  next record _ =>
    obtain ⟨mode, writes, reads⟩ := record.rollout.phase.exists_common_mode
    exact ⟨record.plan.policy mode, List.mem_map_of_mem writes, List.mem_map_of_mem reads⟩

theorem read_of_write (kept : ¬runtime.WritesPastReads collection)
    (writes : policy ∈ runtime.routingPolicies collection .write) :
    policy ∈ runtime.routingPolicies collection .read := by
  unfold routingPolicies at writes ⊢
  split_ifs at writes ⊢ with disabled
  · exact writes
  · split at writes
    · exact writes
    next record governs =>
      unfold RolloutRecord.policies Access.modes at writes ⊢
      have same := RolloutPhase.readModes_of_writeModes fun past => kept ⟨record, governs, past⟩
      simp only at writes ⊢
      rw [same] at writes
      exact writes

/-- **Write targets are covered by reads.** Where every cluster that the policies in
force name is registered, every document of an enabled collection has a target that
a search reaches, and outside `cutover` and `drain` all its targets are reached. -/
theorem indexingRoute_covered (runtime : RoutingRuntime Doc) (collection : String)
    (document : Doc) (available : runtime.federation.clients ≠ [])
    (enabled : runtime.isDisabled collection = false)
    (registered : ∀ access, ∀ policy ∈ runtime.routingPolicies collection access,
      runtime.Registered policy) :
    (∃ target ∈ (runtime.getIndexingRoute collection document).1,
      target ∈ runtime.clusterNamesForSearch collection) ∧
    (¬runtime.WritesPastReads collection →
      ∀ target ∈ (runtime.getIndexingRoute collection document).1,
        target ∈ runtime.clusterNamesForSearch collection) := by
  constructor
  · obtain ⟨policy, writes, reads⟩ := exists_common_policy enabled
    obtain ⟨cluster, target⟩ := exists_target available (registered .write policy writes)
    refine ⟨cluster, ?_, searched_of_target reads target⟩
    exact FederationService.mem_indexingTargets.mpr ⟨policy, writes, target⟩
  · intro kept target routed
    obtain ⟨policy, writes, here⟩ := FederationService.mem_indexingTargets.mp routed
    exact searched_of_target (read_of_write kept writes) here

/-- A rollout of `books` in cutover, from the cluster `north` to the cluster `south`. -/
def migrating : RoutingRuntime String where
  revision := 7
  federation := { clients := ["north", "south"] }
  routingRules := [("books", { policy := { rules := [], defaultCluster := "north" } })]
  routingRollouts :=
    [{ plan :=
        { rolloutId := "r1"
          collection := "books"
          activePolicy := { rules := [], defaultCluster := "north" }
          candidatePolicy := { rules := [], defaultCluster := "south" }
          rollbackWindowSeconds := 900 }
       rollout := { phase := .cutover, version := 9 }
       updatedAt := 3 }]
  rollouts_nodup := by decide
  now := 4

theorem indexingRoute_covered_migrating :
    ∃ target ∈ (migrating.getIndexingRoute "books" "dune").1,
      target ∈ migrating.clusterNamesForSearch "books" := by
  refine (indexingRoute_covered migrating "books" "dune" (by decide) rfl ?_).1
  rintro (- | -)
  · show ∀ policy ∈ migrating.routingPolicies "books" .read, migrating.Registered policy
    decide
  · show ∀ policy ∈ migrating.routingPolicies "books" .write, migrating.Registered policy
    decide

end RoutingRuntime

end ImposbroSearch.Routing
