import ImposbroSearch.Search.FederatedSearch

/-!
# Scatter and gather

The reference is the merge of all hits of the clusters that respond. Clusters that return
their hits in the order of the merge show, in prefixes as long as the end of a page, all
that stands before that end, so the page is the part of the reference at its place.
-/

namespace ImposbroSearch.Search

open ImposbroSearch.Foundation

variable {F : Type} [PyFloat F] {folded : Json F → Text} {sortFields : List SortField}
  {lists : List (List (SearchHit F))}

/-! ## Contents of clusters -/

/-- Contents of clusters: hits with ids, each once in a cluster, with values that can be
compared, in an order that is consistent with the sort fields. -/
structure Shards (folded : Json F → Text) (sortFields : List SortField)
    (lists : List (List (SearchHit F))) : Prop where
  homogeneous : ∀ sort ∈ sortFields, Homogeneous lists.flatten sort.field
  named : ∀ hit ∈ lists.flatten, hit.documentId ≠ []
  distinct : ∀ list ∈ lists, (list.map SearchHit.documentId).Nodup
  consistent : ∀ list ∈ lists,
    list.Pairwise fun first second => compareFields folded sortFields first second ≠ .gt

theorem Shards.ranked (shards : Shards folded sortFields lists) :
    RankedLists SearchHit.documentId (compareHits folded sortFields)
      (compareFields folded sortFields) lists where
  ordered := orderedOn_compareHits shards.homogeneous
  ranks := ranksOn_compareFields shards.homogeneous
  refines first second lt := by
    unfold compareHits
    rw [lt]
    rfl
  byKeys first second same := by
    unfold compareHits
    rw [comparison_eq.mpr same]
    cases compareFields folded sortFields first second with
    | _ => rfl
  sorted := shards.consistent
  distinct := shards.distinct

theorem Shards.withIds (shards : Shards folded sortFields lists) (count : ℕ) :
    withIds (prefixes count lists) = prefixes count lists :=
  List.filter_eq_self.mpr fun hit member =>
    decide_eq_true (shards.named hit (RankedLists.mem_of_prefixes member))

/-- A window that is not beyond the cap. -/
theorem SearchWindow.end_le_fetchNeeded {window : SearchWindow}
    (below : window.totalNeeded ≤ maxDeepPaginationDocs) :
    window.startIdx + window.pageSize = window.totalNeeded ∧
      window.totalNeeded ≤ window.fetchNeeded ∧ 0 < window.fetchNeeded := by
  unfold fetchNeeded
  unfold maxDeepPaginationDocs at *
  refine ⟨?_, by omega, by omega⟩
  cases window with
  | page number perPage positive range =>
      obtain ⟨before, rfl⟩ := Nat.exists_eq_succ_of_ne_zero (by omega : number ≠ 0)
      show (before + 1 - 1) * perPage + perPage = (before + 1) * perPage
      rw [Nat.add_sub_cancel, Nat.succ_mul]
  | offset start limit range => rfl

/-! ## The answer to static clusters -/

/-- What is answered to prefixes of these lists. -/
def staticAnswer (folded : Json F → Text) (sortFields : List SortField)
    (lists : List (List (SearchHit F))) (window : SearchWindow) (internalOnly : List Text)
    (clusters : ℕ) (failedClusters : List Text) : SearchResponse F :=
  answer folded window internalOnly sortFields clusters
    { allHits := prefixes window.fetchNeeded lists
      totalFound := (lists.map List.length).sum
      successfulClusters := lists.length
      failedClusters }

theorem performFederatedSearch_static {clusters : List (Text × Option (List (SearchHit F)))}
    {request : SearchRequest} {defaultSortingField : Option Text}
    (parsed : parseSortFields (forwardedSortBy request defaultSortingField)
      request.hasVectorQuery = some sortFields)
    (responding : clusters.filterMap Prod.snd ≠ [])
    (below : request.window.totalNeeded ≤ maxDeepPaginationDocs) :
    performFederatedSearch folded (clusters.map fun cluster => (cluster.1, clusterClient cluster.2))
      request defaultSortingField =
        .ok (staticAnswer folded sortFields (clusters.filterMap Prod.snd) request.window
          (projectionPlan request.includeFields request.excludeFields sortFields).internalOnly
          clusters.length ((clusters.filter fun cluster => cluster.2.isNone).map Prod.fst)) := by
  have some_ : (clusters.map fun cluster => (cluster.1, clusterClient cluster.2)) ≠ [] := by
    intro none_
    rw [List.map_eq_nil_iff.mp none_] at responding
    exact responding rfl
  obtain ⟨-, -, positive⟩ := SearchWindow.end_le_fetchNeeded below
  unfold performFederatedSearch
  rw [if_neg some_, parsed]
  simp only
  rw [if_neg (by omega), gather_clusterClient clusters positive]
  simp only
  rw [if_neg fun none_ => responding (List.eq_nil_of_length_eq_zero none_), List.length_map]
  rfl

variable {window : SearchWindow} {internalOnly failedClusters : List Text} {clusters : ℕ}
  {reference : List (SearchHit F)}

theorem Shards.staticAnswer_hits (shards : Shards folded sortFields lists) :
    (staticAnswer folded sortFields lists window internalOnly clusters failedClusters).hits =
      (((mergeBest SearchHit.documentId (compareHits folded sortFields)
        (prefixes window.fetchNeeded lists)).drop window.startIdx).take window.pageSize).map
          (SearchHit.hideInternal internalOnly) := by
  unfold staticAnswer answer sortedHits
  simp only [shards.withIds]

/-- **There is more** when a further document is behind the page. -/
theorem Shards.hasMore_iff (shards : Shards folded sortFields lists)
    (whole : IsMerge SearchHit.documentId (compareHits folded sortFields) lists.flatten reference)
    (below : window.totalNeeded ≤ maxDeepPaginationDocs) :
    (staticAnswer folded sortFields lists window internalOnly clusters failedClusters).hasMore =
        true ↔ window.totalNeeded < reference.length := by
  obtain ⟨ends, within, -⟩ := SearchWindow.end_le_fetchNeeded below
  rw [← shards.ranked.more_iff whole within]
  unfold staticAnswer answer sortedHits
  simp only [shards.withIds, ends, Bool.or_eq_true, decide_eq_true_eq]

/-- What a number of documents is worth. -/
def FoundRelation.Holds : FoundRelation → (found documents : ℕ) → Prop
  | .exact, found, documents => found = documents
  | .upperBound, found, documents => documents ≤ found
  | .windowLowerBound, found, documents => found ≤ documents

/-- **What is found** is in the relation that is named to the number of documents. -/
theorem Shards.foundRelation_holds (shards : Shards folded sortFields lists)
    (whole : IsMerge SearchHit.documentId (compareHits folded sortFields) lists.flatten reference)
    (some_ : lists ≠ []) (most : lists.length ≤ clusters) :
    let response := staticAnswer folded sortFields lists window internalOnly clusters failedClusters
    response.foundRelation.Holds response.found reference.length := by
  have upper : reference.length ≤ (lists.map List.length).sum := by
    classical
    have most := whole.length_le_hits
    rwa [List.length_flatten] at most
  unfold staticAnswer answer sortedHits
  simp only [shards.withIds]
  by_cases twice : duplicatesSeen (prefixes window.fetchNeeded lists) = true
  · rw [if_pos twice, if_pos twice]
    exact shards.ranked.length_merge_le whole
  · rw [if_neg twice, if_neg twice]
    by_cases single : clusters = 1
    · rw [if_pos single]
      -- one cluster has each document once
      obtain ⟨list, rfl⟩ : ∃ list, lists = [list] :=
        List.length_eq_one_iff.mp (le_antisymm (by omega) (List.length_pos_iff.mpr some_))
      have lower := whole.length_le (fun hit there => List.mem_flatten.mpr
        ⟨list, List.mem_singleton_self list, there⟩) (shards.distinct list (List.mem_singleton_self list))
      rw [List.map_singleton, List.sum_singleton] at upper ⊢
      exact le_antisymm lower upper
    · rw [if_neg single]
      exact upper

/-! ## The page -/

/-- Contents in the order of the merge, where copies of a document that tie are equal. -/
structure SortedShards (folded : Json F → Text) (sortFields : List SortField)
    (lists : List (List (SearchHit F))) : Prop where
  homogeneous : ∀ sort ∈ sortFields, Homogeneous lists.flatten sort.field
  named : ∀ hit ∈ lists.flatten, hit.documentId ≠ []
  distinct : ∀ list ∈ lists, (list.map SearchHit.documentId).Nodup
  sorted : ∀ list ∈ lists,
    list.Pairwise fun first second => compareHits folded sortFields first second ≠ .gt
  copies : ∀ first ∈ lists.flatten, ∀ second ∈ lists.flatten,
    first.documentId = second.documentId → compareHits folded sortFields first second = .eq →
      first = second

namespace SortedShards

theorem shards (sorted : SortedShards folded sortFields lists) :
    Shards folded sortFields lists where
  homogeneous := sorted.homogeneous
  named := sorted.named
  distinct := sorted.distinct
  consistent list listed := (sorted.sorted list listed).imp fun le gt => le (by
    unfold compareHits
    rw [gt]
    rfl)

/-- Hits of two merges that tie are equal. -/
theorem eq_of_forall₂ (sorted : SortedShards folded sortFields lists)
    {first second : List (SearchHit F)}
    (same : List.Forall₂ (fun left right => left.documentId = right.documentId ∧
      compareHits folded sortFields left right = .eq) first second)
    (inside : ∀ hit ∈ first, hit ∈ lists.flatten) (inside' : ∀ hit ∈ second, hit ∈ lists.flatten) :
    first = second := by
  induction same with
  | nil => rfl
  | cons here _ ih =>
      rw [sorted.copies _ (inside _ List.mem_cons_self) _ (inside' _ List.mem_cons_self) here.1 here.2,
        ih (fun hit member => inside hit (List.mem_cons_of_mem _ member))
          fun hit member => inside' hit (List.mem_cons_of_mem _ member)]

/-- **Prefixes are enough**: before their length the merge of prefixes is the reference. -/
theorem take_eq (sorted : SortedShards folded sortFields lists)
    (whole : IsMerge SearchHit.documentId (compareHits folded sortFields) lists.flatten reference)
    {count needed : ℕ} (within : count ≤ needed) :
    (mergeBest SearchHit.documentId (compareHits folded sortFields) (prefixes needed lists)).take
      count = reference.take count := by
  have ranked := sorted.shards.ranked
  have seen := ranked.isMerge_prefixes needed
  refine sorted.eq_of_forall₂ (whole.take_of_visible ranked.ordered seen
    (fun hit => RankedLists.mem_of_prefixes) count fun hit member => ?_)
    (fun hit member => RankedLists.mem_of_prefixes (seen.mem hit (List.mem_of_mem_take member)))
    fun hit member => whole.mem hit (List.mem_of_mem_take member)
  obtain ⟨place, at_⟩ := List.mem_iff_getElem?.mp member
  rw [List.getElem?_take] at at_
  split at at_
  case isFalse => cases at_
  case isTrue sooner =>
  exact ⟨hit, ranked.seen_of_sorted sorted.sorted whole at_ (by omega), rfl,
    ranked.ordered.self (whole.mem hit (List.mem_of_getElem? at_))⟩

/-- **The reference** is the same in any order of the clusters. -/
theorem reference_eq (sorted : SortedShards folded sortFields lists)
    {others : List (List (SearchHit F))} (same : others.Perm lists) :
    mergeBest SearchHit.documentId (compareHits folded sortFields) others.flatten =
      mergeBest SearchHit.documentId (compareHits folded sortFields) lists.flatten := by
  have ordered := sorted.shards.ranked.ordered
  have whole := isMerge_mergeBest ordered
  have inside : ∀ hit ∈ others.flatten, hit ∈ lists.flatten :=
    fun hit member => same.flatten.mem_iff.mp member
  have part := isMerge_mergeBest (ordered.mono inside)
  have agree := whole.take_of_visible ordered part inside
    (max (mergeBest SearchHit.documentId (compareHits folded sortFields) others.flatten).length
      (mergeBest SearchHit.documentId (compareHits folded sortFields) lists.flatten).length)
    fun hit member => ⟨hit, same.flatten.mem_iff.mpr (whole.mem hit (List.mem_of_mem_take member)),
      rfl, ordered.self (whole.mem hit (List.mem_of_mem_take member))⟩
  rw [List.take_of_length_le (le_max_left _ _), List.take_of_length_le (le_max_right _ _)] at agree
  exact sorted.eq_of_forall₂ agree (fun hit member => inside hit (part.mem hit member)) whole.mem

theorem perm (sorted : SortedShards folded sortFields lists)
    {others : List (List (SearchHit F))} (same : others.Perm lists) :
    SortedShards folded sortFields others where
  homogeneous sort member := (sorted.homogeneous sort member).imp
    (fun numbers hit there => numbers hit (same.flatten.mem_iff.mp there))
    fun texts hit there => texts hit (same.flatten.mem_iff.mp there)
  named hit there := sorted.named hit (same.flatten.mem_iff.mp there)
  distinct list listed := sorted.distinct list (same.mem_iff.mp listed)
  sorted list listed := sorted.sorted list (same.mem_iff.mp listed)
  copies first here second there := sorted.copies first (same.flatten.mem_iff.mp here) second
    (same.flatten.mem_iff.mp there)

/-- The page is a part of the reference. -/
theorem staticAnswer_hits (sorted : SortedShards folded sortFields lists)
    (below : window.totalNeeded ≤ maxDeepPaginationDocs) :
    (staticAnswer folded sortFields lists window internalOnly clusters failedClusters).hits =
      (((mergeBest SearchHit.documentId (compareHits folded sortFields) lists.flatten).drop
        window.startIdx).take window.pageSize).map (SearchHit.hideInternal internalOnly) := by
  obtain ⟨ends, within, -⟩ := SearchWindow.end_le_fetchNeeded below
  rw [sorted.shards.staticAnswer_hits, List.take_drop, List.take_drop, ends,
    sorted.take_eq (isMerge_mergeBest sorted.shards.ranked.ordered) within]

end SortedShards

/-! ## Scatter and gather -/

/-- **The merge of what was fetched is the reference.** The page that is answered is the
part of the reference at its place, in whatever order the clusters respond; there is more
exactly when a further document is behind it; and what is found is in the relation that is
named to the number of documents. -/
theorem scatter_gather {clusters : List (Text × Option (List (SearchHit F)))}
    {request : SearchRequest} {defaultSortingField : Option Text}
    (parsed : parseSortFields (forwardedSortBy request defaultSortingField)
      request.hasVectorQuery = some sortFields)
    (sorted : SortedShards folded sortFields (clusters.filterMap Prod.snd))
    (responding : clusters.filterMap Prod.snd ≠ [])
    (below : request.window.totalNeeded ≤ maxDeepPaginationDocs) :
    let hits := (clusters.filterMap Prod.snd).flatten
    let reference := mergeBest SearchHit.documentId (compareHits folded sortFields) hits
    let plan := projectionPlan request.includeFields request.excludeFields sortFields
    IsMerge SearchHit.documentId (compareHits folded sortFields) hits reference ∧
      ∀ responded : List (Text × Option (List (SearchHit F))), responded.Perm clusters →
        ∃ response, performFederatedSearch folded
          (responded.map fun cluster => (cluster.1, clusterClient cluster.2)) request
            defaultSortingField = .ok response ∧
          response.hits = ((reference.drop request.window.startIdx).take
            request.window.pageSize).map (SearchHit.hideInternal plan.internalOnly) ∧
          (response.hasMore = true ↔
            request.window.startIdx + request.window.pageSize < reference.length) ∧
          response.foundRelation.Holds response.found reference.length := by
  intro hits reference plan
  have whole : IsMerge SearchHit.documentId (compareHits folded sortFields) hits reference :=
    isMerge_mergeBest sorted.shards.ranked.ordered
  refine ⟨whole, fun responded same => ?_⟩
  have lists : (responded.filterMap Prod.snd).Perm (clusters.filterMap Prod.snd) := same.filterMap _
  have sorted' := sorted.perm lists
  have whole' := isMerge_mergeBest sorted'.shards.ranked.ordered
  rw [sorted.reference_eq lists] at whole'
  have responding' : responded.filterMap Prod.snd ≠ [] := by
    intro none_
    rw [none_] at lists
    exact responding lists.symm.eq_nil
  refine ⟨_, performFederatedSearch_static parsed responding' below, ?_, ?_, ?_⟩
  · rw [sorted'.staticAnswer_hits below, sorted.reference_eq lists]
  · rw [(SearchWindow.end_le_fetchNeeded below).1]
    exact sorted'.shards.hasMore_iff whole' below
  · exact sorted'.shards.foundRelation_holds whole' responding' (List.length_filterMap_le _ _)

/-! ## Two clusters with a copy in common -/

def overlapping : List (Text × List (SearchHit SampleFloat)) :=
  [(chars "first", [scored "a" 3, scored "b" 1]), (chars "second", [scored "b" 1])]

theorem sortedShards_overlapping :
    SortedShards (fun _ => []) scoreFields (overlapping.map Prod.snd) where
  homogeneous := by
    refine homogeneous_scored fun hit member => ?_
    have known : hit = scored "a" 3 ∨ hit = scored "b" 1 := by
      simpa [overlapping] using member
    rcases known with rfl | rfl
    · exact ⟨_, _, rfl⟩
    · exact ⟨_, _, rfl⟩
  named := by decide +kernel
  distinct := by decide +kernel
  sorted := by decide +kernel
  copies first here second there same _ := by
    have known : ∀ hit ∈ (overlapping.map Prod.snd).flatten,
        hit = scored "a" 3 ∨ hit = scored "b" 1 := by
      intro hit member
      simpa [overlapping] using member
    rcases known first here with rfl | rfl
    · rcases known second there with rfl | rfl
      · rfl
      · exact absurd same (by decide +kernel)
    · rcases known second there with rfl | rfl
      · exact absurd same (by decide +kernel)
      · rfl

theorem scatter_gather_overlapping : ∃ response : SearchResponse SampleFloat,
    performFederatedSearch (fun _ => [])
      ((overlapping.map fun cluster => (cluster.1, some cluster.2)).map fun cluster =>
        (cluster.1, clusterClient cluster.2))
      (byScore (.page 1 1 le_rfl ⟨le_rfl, by omega⟩)) none = .ok response ∧
      response.hasMore = true := by
  have sorted : SortedShards (fun _ => []) scoreFields
      ((overlapping.map fun cluster => (cluster.1, some cluster.2)).filterMap Prod.snd) :=
    sortedShards_overlapping
  obtain ⟨-, answers⟩ := scatter_gather (parse_byScore (.page 1 1 le_rfl ⟨le_rfl, by omega⟩)) sorted
    (by decide +kernel) (by decide +kernel)
  obtain ⟨response, answered, -, more, -⟩ := answers _ (List.Perm.refl _)
  exact ⟨response, answered, more.mpr (by decide +kernel)⟩

end ImposbroSearch.Search
