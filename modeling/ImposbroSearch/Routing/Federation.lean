import Mathlib
import ImposbroSearch.Indexing.Envelope

/-!
# Routing policies and the clusters they resolve to

A policy is an ordered list of rules with a default cluster. The first rule that
matches a document names its clusters; the virtual name `default` stands for a
registered cluster chosen by the federation. Whether a rule matches is the rule's
own predicate: no result depends on how its operators compare values.
-/

namespace ImposbroSearch.Routing

open ImposbroSearch.Indexing (ClusterName)

variable {Doc : Type}

/-- What a rule names: `cluster`, or `clusters` for fan-out. -/
inductive RuleTarget where
  | cluster (name : ClusterName)
  | clusters (names : List ClusterName)
  deriving DecidableEq, Repr

/-- The names as written, `rule.get("cluster")` and `rule.get("clusters")`. -/
def RuleTarget.names : RuleTarget → List ClusterName
  | .cluster name => [name]
  | .clusters names => names

/-- `_rule_targets` -/
def ruleTargets : RuleTarget → List ClusterName
  | .cluster name => [name].filter (· ≠ "")
  | .clusters names => names.filter (· ≠ "")

/-- `FieldRule`, as its validators accept it: it names at least one cluster. -/
structure FieldRule (Doc : Type) where
  target : RuleTarget
  priority : Option ℕ
  /-- `_rule_matches` for this rule. -/
  isMatch : Doc → Bool
  targets_ne : ruleTargets target ≠ [] := by decide

/-- `RoutingRules`; the default cluster is never the empty name. -/
structure RoutingRules (Doc : Type) where
  rules : List (FieldRule Doc)
  defaultCluster : ClusterName := "default"
  default_named : defaultCluster ≠ "" := by decide

/-- The registered clusters, in the order of their registration. -/
structure FederationService where
  clients : List ClusterName
  clients_nodup : clients.Nodup := by decide
  clients_named : "" ∉ clients := by decide

/-- `unique_targets`: the first occurrence of each name. -/
def uniqueTargets : List ClusterName → List ClusterName
  | [] => []
  | name :: names => name :: (uniqueTargets names).filter (· ≠ name)

@[simp] theorem mem_uniqueTargets {name : ClusterName} {names : List ClusterName} :
    name ∈ uniqueTargets names ↔ name ∈ names := by
  induction names with
  | nil => rfl
  | cons first names ih =>
      simp only [uniqueTargets, List.mem_cons, List.mem_filter, ih, decide_eq_true_eq]
      tauto

theorem uniqueTargets_nodup (names : List ClusterName) : (uniqueTargets names).Nodup := by
  induction names with
  | nil => exact List.nodup_nil
  | cons first names ih =>
      rw [uniqueTargets, List.nodup_cons]
      exact ⟨by simp, ih.filter _⟩

namespace RoutingRules

variable (policy : RoutingRules Doc)

/-- The priority of a rule: its own, or its index. -/
def rulePriority (rule : FieldRule Doc × ℕ) : ℕ := rule.1.priority.getD rule.2

/-- The order of `_ordered_rules_with_index`: by priority, then by index. -/
def RuleBefore (first second : FieldRule Doc × ℕ) : Prop :=
  rulePriority first < rulePriority second ∨
    (rulePriority first = rulePriority second ∧ first.2 ≤ second.2)

instance : DecidableRel (@RuleBefore Doc) :=
  fun _ _ => inferInstanceAs (Decidable (_ ∨ _))

/-- `_ordered_rules` -/
def orderedRules : List (FieldRule Doc) :=
  (policy.rules.zipIdx.insertionSort RuleBefore).map Prod.fst

/-- The `target_clusters` of `preview_routing`. -/
def previewRouting (document : Doc) : List ClusterName :=
  match policy.orderedRules.find? (·.isMatch document) with
  | some rule => ruleTargets rule.target
  | none => [policy.defaultCluster]

/-- Every name a policy mentions, the default last. -/
def clusterNames : List ClusterName :=
  policy.rules.flatMap (fun rule => ruleTargets rule.target) ++ [policy.defaultCluster]

theorem previewRouting_ne_nil (document : Doc) : policy.previewRouting document ≠ [] := by
  unfold previewRouting
  split
  next rule _ => exact rule.targets_ne
  next => exact List.cons_ne_nil _ _

/-- A document is routed to names of the policy. -/
theorem previewRouting_subset (document : Doc) :
    ∀ name ∈ policy.previewRouting document, name ∈ policy.clusterNames := by
  intro name member
  unfold previewRouting at member
  split at member
  next rule found =>
    refine List.mem_append_left _ (List.mem_flatMap.mpr ⟨rule, ?_, member⟩)
    obtain ⟨⟨first, index⟩, sorted, rfl⟩ := List.mem_map.mp (List.mem_of_find?_eq_some found)
    rw [List.mem_insertionSort] at sorted
    exact (List.mem_zipIdx' sorted).2 ▸ List.getElem_mem _
  next => exact List.mem_append_right _ member

end RoutingRules

namespace FederationService

variable (federation : FederationService) (policy : RoutingRules Doc)

/-- `_resolve_default_cluster` -/
def resolveDefaultCluster : Option ClusterName :=
  if "default" ∈ federation.clients then some "default"
  else if "default-data-cluster" ∈ federation.clients then some "default-data-cluster"
  else federation.clients.head?

/-- `resolve_cluster_name` -/
def resolveClusterName (name : ClusterName) : Option ClusterName :=
  if name = "default" then federation.resolveDefaultCluster
  else if name ∈ federation.clients then some name
  else none

/-- `register_cluster` of a new name. -/
def register (name : ClusterName) (fresh : name ∉ federation.clients) (named : name ≠ "") :
    FederationService where
  clients := federation.clients ++ [name]
  clients_nodup := by
    rw [List.nodup_append_comm]
    exact List.nodup_cons.mpr ⟨fresh, federation.clients_nodup⟩
  clients_named := by
    rw [List.mem_append, List.mem_singleton]
    rintro (empty | empty)
    · exact federation.clients_named empty
    · exact named empty.symm

/-- `del self.clients[name]` -/
def unregister (name : ClusterName) : FederationService where
  clients := federation.clients.erase name
  clients_nodup := federation.clients_nodup.erase name
  clients_named := fun empty => federation.clients_named (List.mem_of_mem_erase empty)

/-- The clusters that `validate_routing_policy` reports as not registered. -/
def missingClusters : List ClusterName :=
  let named := policy.rules.flatMap fun rule =>
    (ruleTargets rule.target).map fun name => (federation.resolveClusterName name).getD name
  let default :=
    if policy.defaultCluster = "default" then federation.resolveDefaultCluster
    else some policy.defaultCluster
  (named ++ default.toList).filter (· ∉ federation.clients)

/-- `_targets_for_policy_document`: names that do not resolve are left out. -/
def targetsForPolicyDocument (document : Doc) : List ClusterName :=
  (policy.previewRouting document).filterMap federation.resolveClusterName

/-- The targets of `get_indexing_route` under the write policies in force. -/
def indexingTargets (policies : List (RoutingRules Doc)) (document : Doc) : List ClusterName :=
  uniqueTargets (policies.flatMap fun policy => federation.targetsForPolicyDocument policy document)

/-- The targets of `get_delete_route`: every registered cluster. -/
def deleteTargets : List ClusterName := federation.clients

/-- The name that `add_cluster` adds to a search, if any. -/
def searchCluster (name : ClusterName) : Option ClusterName :=
  let name := if name = "default" then federation.resolveDefaultCluster.getD "" else name
  if name ≠ "" ∧ name ∈ federation.clients then some name else none

/-- `_cluster_names_for_search` under a rollout's read policies. -/
def clusterNamesForSearch (policies : List (RoutingRules Doc)) : List ClusterName :=
  uniqueTargets (policies.flatMap fun policy =>
    policy.clusterNames.filterMap federation.searchCluster)

/-- Every name of the list resolves. -/
def resolveAll : List ClusterName → Except ClusterName (List ClusterName)
  | [] => .ok []
  | name :: names =>
    match federation.resolveClusterName name, resolveAll names with
    | none, _ => .error name
    | some _, .error missing => .error missing
    | some cluster, .ok clusters => .ok (cluster :: clusters)

variable {federation policy}

theorem resolveDefaultCluster_mem {cluster : ClusterName}
    (resolved : federation.resolveDefaultCluster = some cluster) :
    cluster ∈ federation.clients := by
  unfold resolveDefaultCluster at resolved
  split_ifs at resolved with named fallback
  · exact Option.some.inj resolved ▸ named
  · exact Option.some.inj resolved ▸ fallback
  · exact List.mem_of_head? resolved

theorem resolveClusterName_mem {name cluster : ClusterName}
    (resolved : federation.resolveClusterName name = some cluster) :
    cluster ∈ federation.clients := by
  unfold resolveClusterName at resolved
  split_ifs at resolved with virtual registered
  · exact resolveDefaultCluster_mem resolved
  · exact Option.some.inj resolved ▸ registered

/-- `default` resolves as soon as a cluster is registered. -/
theorem resolveDefaultCluster_ne_none (available : federation.clients ≠ []) :
    ∃ cluster, federation.resolveDefaultCluster = some cluster := by
  unfold resolveDefaultCluster
  split_ifs
  · exact ⟨_, rfl⟩
  · exact ⟨_, rfl⟩
  · exact ⟨_, List.head?_eq_some_head available⟩

/-- A registered name resolves, to itself or to the default. -/
theorem exists_resolveClusterName {name : ClusterName} (available : federation.clients ≠ [])
    (registered : name = "default" ∨ name ∈ federation.clients) :
    ∃ cluster, federation.resolveClusterName name = some cluster := by
  unfold resolveClusterName
  rcases registered with virtual | registered
  · rw [if_pos virtual]
    exact resolveDefaultCluster_ne_none available
  · split_ifs
    · exact resolveDefaultCluster_ne_none available
    · exact ⟨name, rfl⟩

/-- A registered cluster is found under its own name. -/
theorem searchCluster_of_mem {cluster : ClusterName} (registered : cluster ∈ federation.clients) :
    federation.searchCluster cluster = some cluster := by
  have named : cluster ≠ "" := fun empty => federation.clients_named (empty ▸ registered)
  unfold searchCluster
  by_cases virtual : cluster = "default"
  · subst virtual
    simp [resolveDefaultCluster, registered]
  · simp [virtual, registered, named]

/-- A search looks where a name resolves to. -/
theorem searchCluster_of_resolve {name cluster : ClusterName}
    (resolved : federation.resolveClusterName name = some cluster) :
    federation.searchCluster name = some cluster := by
  have registered := resolveClusterName_mem resolved
  have named : cluster ≠ "" := fun empty => federation.clients_named (empty ▸ registered)
  unfold resolveClusterName at resolved
  unfold searchCluster
  split_ifs at resolved with virtual direct
  · simp [virtual, resolved, named, registered]
  · simp only [virtual, if_false]
    obtain rfl := Option.some.inj resolved
    simp [named, registered]

/-- **Reads and writes resolve names alike.** -/
theorem searchCluster_eq_resolve (name : ClusterName) :
    federation.searchCluster name = federation.resolveClusterName name := by
  cases resolved : federation.resolveClusterName name with
  | some cluster => exact searchCluster_of_resolve resolved
  | none =>
      unfold resolveClusterName at resolved
      unfold searchCluster
      split_ifs at resolved with virtual registered
      · simp [virtual, resolved]
      · simp [virtual, registered]

theorem mem_targetsForPolicyDocument {document : Doc} {cluster : ClusterName} :
    cluster ∈ federation.targetsForPolicyDocument policy document ↔
      ∃ name ∈ policy.previewRouting document,
        federation.resolveClusterName name = some cluster := by
  simp [targetsForPolicyDocument]

@[simp] theorem mem_indexingTargets {policies : List (RoutingRules Doc)} {document : Doc}
    {cluster : ClusterName} :
    cluster ∈ federation.indexingTargets policies document ↔
      ∃ policy ∈ policies, cluster ∈ federation.targetsForPolicyDocument policy document := by
  simp [indexingTargets]

/-- **What a policy indexes it also searches.** -/
theorem targets_subset_search {policies : List (RoutingRules Doc)} (member : policy ∈ policies)
    {document : Doc} {cluster : ClusterName}
    (routed : cluster ∈ federation.targetsForPolicyDocument policy document) :
    cluster ∈ federation.clusterNamesForSearch policies := by
  obtain ⟨name, previewed, resolved⟩ := mem_targetsForPolicyDocument.mp routed
  rw [clusterNamesForSearch, mem_uniqueTargets, List.mem_flatMap]
  refine ⟨policy, member, List.mem_filterMap.mpr ⟨name, ?_, searchCluster_of_resolve resolved⟩⟩
  exact policy.previewRouting_subset document name previewed

theorem mem_resolveAll {names clusters : List ClusterName}
    (resolved : federation.resolveAll names = .ok clusters) :
    ∀ cluster, cluster ∈ clusters ↔
      ∃ name ∈ names, federation.resolveClusterName name = some cluster := by
  induction names generalizing clusters with
  | nil =>
      cases resolved
      simp
  | cons name names ih =>
      unfold resolveAll at resolved
      split at resolved
      · cases resolved
      · cases resolved
      next first rest found tail =>
        cases resolved
        intro cluster
        simp [ih tail cluster, found, eq_comm]

/-- Once every name has resolved, each of them does. -/
theorem exists_of_resolveAll {names clusters : List ClusterName}
    (resolved : federation.resolveAll names = .ok clusters) :
    ∀ name ∈ names, ∃ cluster, federation.resolveClusterName name = some cluster := by
  induction names generalizing clusters with
  | nil => simp
  | cons name names ih =>
      unfold resolveAll at resolved
      split at resolved
      · cases resolved
      · cases resolved
      next first rest found tail =>
        intro other member
        rcases List.mem_cons.mp member with rfl | member
        · exact ⟨first, found⟩
        · exact ih tail other member

end FederationService

end ImposbroSearch.Routing
