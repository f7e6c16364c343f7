import Mathlib.Data.List.Dedup
import Mathlib.Data.String.Basic
import ImposbroSearch.Foundation.Paging
import ImposbroSearch.Indexing.Delivery
import ImposbroSearch.Routing.Rollout

/-!
# The routing migration executor

A backfill step exports the union of the active policy's clusters, takes the next
documents by id, and imports each of them into the clusters the candidate policy
routes it to. An import is an upsert of the copied documents: it neither reads nor
writes a checkpoint. Parity compares the two unions.

Copies of a document are compared by their canonical JSON, which is what `Doc`
stands for here. A collection is a function of the document id; `ids` lists the ids
that may be in use.
-/

namespace ImposbroSearch.Migration

open ImposbroSearch.Foundation ImposbroSearch.Indexing ImposbroSearch.Routing

variable {Doc : Type}

/-- The documents of the collection, by cluster and id. -/
abbrev Copies (Doc : Type) := ClusterName → String → Option Doc

/-- The documents to import into one cluster. -/
abbrev Batch (Doc : Type) := ClusterName × List (String × Doc)

/-- `BackfillStepResult`, without its counters. -/
structure BackfillStepResult where
  lastDocumentId : String
  complete : Bool
  deriving DecidableEq, Repr

/-- `ParityReport`, without its counts and samples. -/
structure ParityReport where
  passed : Bool
  digest : String
  deriving DecidableEq, Repr

/-- `_policy_clusters` -/
def policyClusters (federation : FederationService) (policy : RoutingRules Doc) :
    Except String (List ClusterName) :=
  match federation.resolveAll policy.clusterNames with
  | .error name => .error ("Routing policy references unavailable cluster '" ++ name ++ "'")
  | .ok clusters => .ok (uniqueTargets clusters)

/-- `_candidate_targets` -/
def candidateTargets (federation : FederationService) (policy : RoutingRules Doc)
    (documentId : String) (document : Doc) : Except String (List ClusterName) :=
  match federation.resolveAll (policy.previewRouting document) with
  | .error name =>
    .error ("Candidate policy resolved to unavailable cluster '" ++ name ++ "'")
  | .ok [] =>
    .error ("Candidate policy produced no target for document '" ++ documentId ++ "'")
  | .ok clusters => .ok (uniqueTargets clusters)

/-- The ids in use, in the order a step copies them. -/
def sortedIds (ids : List String) : List String := ids.dedup.insertionSort (· ≤ ·)

section Export

variable [DecidableEq Doc] (copies : Copies Doc) (ids : List String)

/-- Two copies of one document differ. -/
def Conflicting (known : Option (Doc × ClusterName)) (copy : Option Doc) : Prop :=
  ∃ first ∈ known, ∃ second ∈ copy, first.1 ≠ second

instance (known : Option (Doc × ClusterName)) (copy : Option Doc) :
    Decidable (Conflicting known copy) :=
  inferInstanceAs (Decidable (∃ first ∈ known, ∃ second ∈ copy, first.1 ≠ second))

/-- The union so far, with the origin of each document, and one more cluster. -/
def mergeExport (documents : String → Option (Doc × ClusterName)) (cluster : ClusterName) :
    Except String (String → Option (Doc × ClusterName)) :=
  match ids.find? fun id => Conflicting (documents id) (copies cluster id) with
  | some id => .error ("Conflicting copies for document '" ++ id ++ "' on '" ++
      ((documents id).elim "" Prod.snd) ++ "' and '" ++ cluster ++ "'")
  | none => .ok fun id => ((copies cluster id).map fun document => (document, cluster)).or
      (documents id)

def exportClusters (documents : String → Option (Doc × ClusterName)) :
    List ClusterName → Except String (String → Option (Doc × ClusterName))
  | [] => .ok documents
  | cluster :: clusters =>
    match mergeExport copies ids documents cluster with
    | .error message => .error message
    | .ok merged => exportClusters merged clusters

/-- `_export_policy_union` -/
def exportPolicyUnion (federation : FederationService) (policy : RoutingRules Doc) :
    Except String (String → Option Doc) :=
  match policyClusters federation policy with
  | .error message => .error message
  | .ok clusters =>
    match exportClusters copies ids (fun _ => none) clusters with
    | .error message => .error message
    | .ok documents => .ok fun id => (documents id).map Prod.fst

end Export

section Step

variable (federation : FederationService) (plan : RolloutPlan Doc)

/-- Each selected document with its candidate targets. -/
def routeSelected : List (String × Doc) → Except String (List ((String × Doc) × List ClusterName))
  | [] => .ok []
  | (documentId, document) :: selected =>
    match candidateTargets federation plan.candidatePolicy documentId document,
        routeSelected selected with
    | .error message, _ => .error message
    | .ok _, .error message => .error message
    | .ok targets, .ok routed => .ok (((documentId, document), targets) :: routed)

/-- The `batches` of a step: for each cluster the selected documents routed to it. -/
def batchesOf (routed : List ((String × Doc) × List ClusterName)) : List (Batch Doc) :=
  (uniqueTargets (routed.flatMap Prod.snd)).map fun cluster =>
    (cluster, (routed.filter fun entry => cluster ∈ entry.2).map Prod.fst)

/-- The ids a step selects from, in order. -/
def sourceIds (ids : List String) (source : String → Option Doc) : List String :=
  (sortedIds ids).filter fun id => (source id).isSome

/-- `run_step` up to its imports: the batches, and what it returns once they are
imported. -/
def planStep [DecidableEq Doc] (copies : Copies Doc) (ids : List String)
    (checkpoint : BackfillCheckpoint) (maxDocuments : ℕ) :
    Except String (List (Batch Doc) × BackfillStepResult) :=
  if maxDocuments < 1 ∨ 10000 < maxDocuments then
    .error "max_documents must be between 1 and 10000"
  else
    match exportPolicyUnion copies ids federation plan.activePolicy with
    | .error message => .error message
    | .ok source =>
      let pendingIds := behind id checkpoint.lastDocumentId (sourceIds ids source)
      let selectedIds := page id checkpoint.lastDocumentId maxDocuments (sourceIds ids source)
      let selected := selectedIds.filterMap fun id => (source id).map fun document => (id, document)
      match routeSelected federation plan selected with
      | .error message => .error message
      | .ok routed => .ok (batchesOf routed,
          { lastDocumentId := lastKey id checkpoint.lastDocumentId selectedIds
            complete := selectedIds.length = pendingIds.length })

/-- `_logical_digest`, of the documents in the order of their ids. -/
def logicalDigest (digest : List (String × Doc) → String) (ids : List String)
    (documents : String → Option Doc) : String :=
  "sha256:" ++ digest ((sourceIds ids documents).filterMap fun id =>
    (documents id).map fun document => (id, document))

/-- The comparison of `verify_parity`. -/
def compareExports [DecidableEq Doc] (digest : List (String × Doc) → String) (ids : List String)
    (source candidate : String → Option Doc) : ParityReport :=
  let sourceDigest := logicalDigest digest ids source
  let candidateDigest := logicalDigest digest ids candidate
  { passed := ids.all (fun id => source id = candidate id) && sourceDigest = candidateDigest
    digest := if sourceDigest = candidateDigest then sourceDigest else "" }

end Step

/-- The import of one batch: `documents.import_` with the action `upsert`. -/
def importDocuments (storage : Storage Doc) (collection : String) (batch : Batch Doc) :
    Storage Doc :=
  { storage with
    documents := fun cluster address =>
      if cluster = batch.1 ∧ address.collection = collection then
        (batch.2.lookup address.documentId).or (storage.documents cluster address)
      else storage.documents cluster address }

variable {copies : Copies Doc} {ids : List String} {federation : FederationService}
  {policy : RoutingRules Doc} {plan : RolloutPlan Doc}

/-! ## Clusters of a policy -/

/-- **A policy routes into its own clusters.** -/
theorem targets_subset_policyClusters {clusters : List ClusterName}
    (resolved : policyClusters federation policy = .ok clusters) {document : Doc}
    {cluster : ClusterName}
    (routed : cluster ∈ federation.targetsForPolicyDocument policy document) :
    cluster ∈ clusters := by
  unfold policyClusters at resolved
  split at resolved
  · cases resolved
  next names found =>
    cases resolved
    obtain ⟨name, previewed, here⟩ := FederationService.mem_targetsForPolicyDocument.mp routed
    rw [mem_uniqueTargets, FederationService.mem_resolveAll found]
    exact ⟨name, policy.previewRouting_subset document name previewed, here⟩

/-- Where every name resolves, each document is routed somewhere. -/
theorem exists_target_of_policyClusters {clusters : List ClusterName}
    (resolved : policyClusters federation policy = .ok clusters) (document : Doc) :
    ∃ cluster, cluster ∈ federation.targetsForPolicyDocument policy document := by
  unfold policyClusters at resolved
  split at resolved
  · cases resolved
  next names found =>
    obtain ⟨name, previewed⟩ := List.exists_mem_of_ne_nil _ (policy.previewRouting_ne_nil document)
    obtain ⟨cluster, here⟩ := FederationService.exists_of_resolveAll found name
      (policy.previewRouting_subset document name previewed)
    exact ⟨cluster, FederationService.mem_targetsForPolicyDocument.mpr ⟨name, previewed, here⟩⟩

/-- The clusters of a policy are listed once each, and there is one. -/
theorem policyClusters_listed {clusters : List ClusterName}
    (resolved : policyClusters federation policy = .ok clusters) :
    clusters ≠ [] ∧ clusters.Nodup := by
  unfold policyClusters at resolved
  split at resolved
  · cases resolved
  next names found =>
    cases resolved
    refine ⟨?_, uniqueTargets_nodup names⟩
    have named : policy.defaultCluster ∈ policy.clusterNames := by simp [RoutingRules.clusterNames]
    obtain ⟨cluster, here⟩ := FederationService.exists_of_resolveAll found _ named
    have member := (FederationService.mem_resolveAll found cluster).mpr ⟨_, named, here⟩
    exact List.ne_nil_of_mem (mem_uniqueTargets.mpr member)

theorem mem_candidateTargets {documentId : String} {document : Doc} {targets : List ClusterName}
    (routed : candidateTargets federation policy documentId document = .ok targets)
    {cluster : ClusterName} :
    cluster ∈ targets ↔ cluster ∈ federation.targetsForPolicyDocument policy document := by
  unfold candidateTargets at routed
  split at routed
  · cases routed
  · cases routed
  next clusters _ found =>
    cases routed
    rw [mem_uniqueTargets, FederationService.mem_resolveAll found,
      FederationService.mem_targetsForPolicyDocument]

/-! ## What an export finds -/

theorem sortedIds_pairwise (ids : List String) : (sortedIds ids).Pairwise (· < ·) := by
  have order := List.pairwise_insertionSort (· ≤ ·) ids.dedup
  have nodup : (sortedIds ids).Nodup :=
    (List.perm_insertionSort (· ≤ ·) ids.dedup).nodup_iff.mpr ids.nodup_dedup
  exact order.imp₂ (fun _ _ le ne => lt_of_le_of_ne le ne) nodup

@[simp] theorem mem_sortedIds {id : String} : id ∈ sortedIds ids ↔ id ∈ ids := by
  simp [sortedIds, List.mem_insertionSort]

theorem sourceIds_pairwise (ids : List String) (source : String → Option Doc) :
    (sourceIds ids source).Pairwise fun first second => id first < id second :=
  (sortedIds_pairwise ids).filter _

theorem mem_sourceIds {source : String → Option Doc} {documentId : String} {document : Doc}
    (member : documentId ∈ ids) (found : source documentId = some document) :
    documentId ∈ sourceIds ids source := by
  simp [sourceIds, member, found]

section Export

variable [DecidableEq Doc]

/-- **An export without conflict shows every copy.** -/
theorem exportClusters_ok {documents result : String → Option (Doc × ClusterName)}
    {clusters : List ClusterName}
    (exported : exportClusters copies ids documents clusters = .ok result) {documentId : String}
    (member : documentId ∈ ids) {document : Doc}
    (present : (documents documentId).map Prod.fst = some document ∨
      ∃ cluster ∈ clusters, copies cluster documentId = some document) :
    (result documentId).map Prod.fst = some document := by
  induction clusters generalizing documents with
  | nil =>
      cases exported
      rcases present with known | ⟨cluster, none, -⟩
      · exact known
      · cases none
  | cons cluster clusters ih =>
      unfold exportClusters at exported
      split at exported
      · cases exported
      next merged step =>
        refine ih exported ?_
        unfold mergeExport at step
        split at step
        · cases step
        next agree =>
          cases step
          have same := List.find?_eq_none.mp agree documentId member
          simp only [decide_eq_true_eq] at same
          rcases present with known | ⟨other, here, copied⟩
          · refine Or.inl ?_
            cases copied : copies cluster documentId with
            | none => simpa [copied] using known
            | some copy =>
                obtain ⟨entry, found, rfl⟩ := Option.map_eq_some_iff.mp known
                have equal : entry.1 = copy := by
                  by_contra differ
                  exact same ⟨entry, found, copy, copied, differ⟩
                simp only [copied, Option.map_some, Option.some_or, equal]
          · rcases List.mem_cons.mp here with rfl | later
            · exact Or.inl (by simp [copied])
            · exact Or.inr ⟨other, later, copied⟩

/-- What an export of a policy found: all its names resolve, and each copy on its
clusters is the document it returns. -/
theorem exportPolicyUnion_ok {source : String → Option Doc}
    (exported : exportPolicyUnion copies ids federation policy = .ok source) :
    ∃ clusters, policyClusters federation policy = .ok clusters ∧
      ∀ documentId ∈ ids, ∀ cluster ∈ clusters, ∀ document,
        copies cluster documentId = some document → source documentId = some document := by
  unfold exportPolicyUnion at exported
  split at exported
  · cases exported
  next clusters resolved =>
    split at exported
    · cases exported
    next documents merged =>
      cases exported
      exact ⟨clusters, resolved, fun documentId member cluster here document copied =>
        exportClusters_ok merged member (Or.inr ⟨cluster, here, copied⟩)⟩

end Export

/-! ## What a step copies -/

theorem routeSelected_ok {selected : List (String × Doc)}
    {routed : List ((String × Doc) × List ClusterName)}
    (done : routeSelected federation plan selected = .ok routed) :
    (∀ entry ∈ selected, ∃ targets, (entry, targets) ∈ routed ∧ ∀ cluster,
      cluster ∈ targets ↔
        cluster ∈ federation.targetsForPolicyDocument plan.candidatePolicy entry.2) ∧
      ∀ entry ∈ routed, ∀ cluster ∈ entry.2, ∃ document : Doc,
        cluster ∈ federation.targetsForPolicyDocument plan.candidatePolicy document := by
  induction selected generalizing routed with
  | nil =>
      cases done
      simp
  | cons head selected ih =>
      obtain ⟨documentId, document⟩ := head
      unfold routeSelected at done
      split at done
      · cases done
      · cases done
      next targets rest here tail =>
        cases done
        obtain ⟨each, only⟩ := ih tail
        constructor
        · intro entry member
          rcases List.mem_cons.mp member with rfl | member
          · exact ⟨targets, List.mem_cons_self, fun cluster => mem_candidateTargets here⟩
          · obtain ⟨found, inRouted, same⟩ := each entry member
            exact ⟨found, List.mem_cons_of_mem _ inRouted, same⟩
        · intro entry member cluster targeted
          rcases List.mem_cons.mp member with rfl | member
          · exact ⟨document, (mem_candidateTargets here).mp targeted⟩
          · exact only entry member cluster targeted

theorem mem_batchesOf {routed : List ((String × Doc) × List ClusterName)} {entry : String × Doc}
    {targets : List ClusterName} (member : (entry, targets) ∈ routed) {cluster : ClusterName}
    (targeted : cluster ∈ targets) :
    ∃ batch ∈ batchesOf routed, batch.1 = cluster ∧ entry ∈ batch.2 := by
  refine ⟨_, List.mem_map.mpr ⟨cluster, ?_, rfl⟩, rfl, ?_⟩
  · rw [mem_uniqueTargets, List.mem_flatMap]
    exact ⟨_, member, targeted⟩
  · refine List.mem_map.mpr ⟨(entry, targets), ?_, rfl⟩
    simpa using ⟨member, targeted⟩

theorem batchesOf_cluster {routed : List ((String × Doc) × List ClusterName)} {batch : Batch Doc}
    (member : batch ∈ batchesOf routed) : ∃ entry ∈ routed, batch.1 ∈ entry.2 := by
  obtain ⟨cluster, named, rfl⟩ := List.mem_map.mp member
  rw [mem_uniqueTargets, List.mem_flatMap] at named
  exact named

/-- **What a step plans.** Every document that an active copy shows, behind the
cursor and not behind the step's last id, is in a batch for each cluster the
candidate policy routes it to; and a batch goes to a cluster of that policy. -/
theorem planStep_ok [DecidableEq Doc] {checkpoint : BackfillCheckpoint} {maxDocuments : ℕ}
    {batches : List (Batch Doc)} {result : BackfillStepResult}
    (planned : planStep federation plan copies ids checkpoint maxDocuments =
      .ok (batches, result)) :
    ∃ clusters, policyClusters federation plan.activePolicy = .ok clusters ∧
      (∀ documentId ∈ ids, ∀ cluster ∈ clusters, ∀ document,
        copies cluster documentId = some document → checkpoint.lastDocumentId < documentId →
          (documentId ≤ result.lastDocumentId ∨ result.complete = true) →
            ∀ target ∈ federation.targetsForPolicyDocument plan.candidatePolicy document,
              ∃ batch ∈ batches, batch.1 = target ∧ (documentId, document) ∈ batch.2) ∧
      (∀ batch ∈ batches, ∃ document : Doc,
        batch.1 ∈ federation.targetsForPolicyDocument plan.candidatePolicy document) ∧
      checkpoint.lastDocumentId ≤ result.lastDocumentId := by
  unfold planStep at planned
  split at planned
  · cases planned
  · split at planned
    · cases planned
    next source exported =>
      simp only at planned
      split at planned
      · cases planned
      next routed done =>
        cases planned
        obtain ⟨clusters, resolved, shows⟩ := exportPolicyUnion_ok exported
        obtain ⟨each, only⟩ := routeSelected_ok done
        refine ⟨clusters, resolved, ?_, ?_, ?_⟩
        · intro documentId member cluster here document copied after within target routedTo
          have found := shows documentId member cluster here document copied
          have pending := mem_sourceIds member found
          have paged : documentId ∈ page id checkpoint.lastDocumentId maxDocuments
              (sourceIds ids source) := by
            rcases within with within | complete
            · exact mem_page_of_le_lastKey (sourceIds_pairwise ids source) pending after within
            · exact mem_page_of_complete (of_decide_eq_true complete) pending after
          obtain ⟨targets, inRouted, same⟩ := each (documentId, document)
            (List.mem_filterMap.mpr ⟨documentId, paged, by simp [found]⟩)
          exact mem_batchesOf inRouted ((same target).mpr routedTo)
        · intro batch member
          obtain ⟨entry, inRouted, targeted⟩ := batchesOf_cluster member
          exact only entry inRouted batch.1 targeted
        · by_cases empty : page id checkpoint.lastDocumentId maxDocuments
              (sourceIds ids source) = []
          · simp [empty]
          · obtain ⟨last, paged, same⟩ := lastKey_of_ne_nil id checkpoint.lastDocumentId empty
            show checkpoint.lastDocumentId ≤ lastKey id checkpoint.lastDocumentId _
            rw [same]
            exact le_of_lt (mem_of_mem_page paged).2

end ImposbroSearch.Migration
