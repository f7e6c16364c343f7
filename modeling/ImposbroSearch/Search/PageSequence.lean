import ImposbroSearch.Search.ScatterGather

/-!
# A search read page after page

A reader takes pages, or windows behind one another, until there are no more. Clusters break
ties of the sort fields in an order of their own, and the gateway by the ids, so a document
may come on the page where it belongs behind more ties than a cluster is asked for there.
-/

namespace ImposbroSearch.Search

open ImposbroSearch.Foundation

variable {F : Type} [PyFloat F] {folded : Json F → Text} {sortFields : List SortField}
  {lists : List (List (SearchHit F))}

/-! ## Reading pages -/

/-- How a reader goes on: by the number of the page, or by the offset. -/
inductive Paging where
  | pages
  | offsets
  deriving DecidableEq, Repr

/-- The window of that number, from 0. -/
def Paging.window (paging : Paging) (size : ℕ) (range : 1 ≤ size ∧ size ≤ 250) (number : ℕ) :
    SearchWindow :=
  match paging with
  | .pages => .page (number + 1) size (Nat.succ_le_succ (Nat.zero_le number)) range
  | .offsets => .offset (number * size) size range

/-- The hits of all pages from this one to the first that has none behind it. -/
def readPages (search : ℕ → Except SearchError (SearchResponse F)) :
    (most number : ℕ) → Option (List (SearchHit F))
  | 0, _ => none
  | most + 1, number =>
    match search number with
    | .error _ => none
    | .ok response =>
      if response.hasMore then (readPages search most (number + 1)).map (response.hits ++ ·)
      else some response.hits

/-- The number of pages of so many documents. -/
def pageCount (documents size : ℕ) : ℕ := max 1 ((documents + size - 1) / size)

variable {paging : Paging} {size : ℕ} {range : 1 ≤ size ∧ size ≤ 250}

@[simp] theorem Paging.totalNeeded_window (number : ℕ) :
    (paging.window size range number).totalNeeded = (number + 1) * size := by
  cases paging with
  | pages => rfl
  | offsets => exact (Nat.succ_mul number size).symm

@[simp] theorem Paging.startIdx_window (number : ℕ) :
    (paging.window size range number).startIdx = number * size := by
  cases paging with
  | pages => rfl
  | offsets => rfl

@[simp] theorem Paging.pageSize_window (number : ℕ) :
    (paging.window size range number).pageSize = size := by
  cases paging with
  | pages => rfl
  | offsets => rfl

/-- Pages before the last have a document behind them. -/
theorem lt_pageCount_iff {documents number : ℕ} (positive : 0 < size) :
    number + 1 < pageCount documents size ↔ (number + 1) * size < documents := by
  unfold pageCount
  rw [lt_max_iff, or_iff_right (by omega), Nat.lt_div_iff_mul_lt positive]
  omega

theorem pageCount_covers (documents : ℕ) (positive : 0 < size) :
    (pageCount documents size - 1) * size ≤ documents ∧
      documents ≤ pageCount documents size * size := by
  constructor
  · cases many : pageCount documents size - 1 with
    | zero => rw [Nat.zero_mul]; exact Nat.zero_le _
    | succ number =>
        exact le_of_lt ((lt_pageCount_iff positive).mp (by omega))
  · by_contra more
    have positiveCount : 0 < pageCount documents size := lt_max_of_lt_left Nat.one_pos
    obtain ⟨number, same⟩ := Nat.exists_eq_succ_of_ne_zero positiveCount.ne'
    rw [same] at more
    have further := (lt_pageCount_iff positive).mpr (Nat.lt_of_not_le more)
    omega

omit [PyFloat F] in
/-- **All pages are read** when the last one is the first that says that there are no more. -/
theorem readPages_eq {search : ℕ → Except SearchError (SearchResponse F)}
    {pages : ℕ → List (SearchHit F)} {last : ℕ}
    (each : ∀ number ≤ last, ∃ response, search number = .ok response ∧
      response.hits = pages number ∧ (response.hasMore = true ↔ number < last))
    (most number : ℕ) (begun : number ≤ last) (enough : last < number + most) :
    readPages search most number =
      some ((List.range' number (last + 1 - number)).map pages).flatten := by
  induction most generalizing number with
  | zero => omega
  | succ most ih =>
      obtain ⟨response, found, hits, more⟩ := each number begun
      have split : last + 1 - number = last - number + 1 := by omega
      rw [readPages, found, split, List.range'_succ, List.map_cons, List.flatten_cons]
      by_cases further : number < last
      · have rest := ih (number + 1) (by omega) (by omega)
        simp only
        rw [if_pos (more.mpr further), rest, hits, Nat.add_sub_add_right]
        rfl
      · have done : last - number = 0 := by omega
        simp only
        rw [if_neg (mt more.mp further), hits, done, List.range'_zero, List.map_nil,
          List.flatten_nil, List.append_nil]

/-! ## Pages of static clusters -/

/-- The number of matching documents. -/
def documentCount (lists : List (List (SearchHit F))) : ℕ :=
  (lists.flatten.map SearchHit.documentId).dedup.length

theorem length_reference {hits reference : List (SearchHit F)}
    (whole : IsMerge SearchHit.documentId (compareHits folded sortFields) hits reference) :
    reference.length = (hits.map SearchHit.documentId).dedup.length := by
  have same : (reference.map SearchHit.documentId).Perm (hits.map SearchHit.documentId).dedup := by
    rw [List.perm_ext_iff_of_nodup whole.nodup (List.nodup_dedup _)]
    intro id
    rw [List.mem_dedup, List.mem_map, List.mem_map]
    constructor
    · rintro ⟨hit, there, rfl⟩
      exact ⟨hit, whole.mem hit there, rfl⟩
    · rintro ⟨hit, there, rfl⟩
      exact whole.complete hit there
  rw [← same.length_eq, List.length_map]

/-- The hits of the first pages, before fields are hidden. -/
def shownHits (folded : Json F → Text) (sortFields : List SortField)
    (lists : List (List (SearchHit F))) (window : ℕ → SearchWindow) (size pages : ℕ) :
    List (SearchHit F) :=
  firstPages SearchHit.documentId (compareHits folded sortFields) lists
    (fun number => (window number).fetchNeeded) size pages

/-- **Each document is seen in time**: a copy as good as its best one is among the hits that
are fetched for the page where the document belongs, behind the documents that have a copy
before its best one. -/
def SeenInTime (folded : Json F → Text) (sortFields : List SortField)
    (lists : List (List (SearchHit F))) (window : ℕ → SearchWindow) (size : ℕ) : Prop :=
  ∀ best ∈ lists.flatten,
    (∀ other ∈ lists.flatten, other.documentId = best.documentId →
      compareHits folded sortFields best other ≠ .gt) →
    ∃ copy ∈ prefixes (window ((keysBefore SearchHit.documentId (compareHits folded sortFields)
        lists.flatten best).length / size)).fetchNeeded lists,
      copy.documentId = best.documentId ∧ compareHits folded sortFields copy best = .eq

/-- It is enough to see the hits of the reference in time. -/
theorem seenInTime_iff {window : ℕ → SearchWindow} {reference : List (SearchHit F)}
    (ordered : OrderedOn SearchHit.documentId (compareHits folded sortFields) (· ∈ lists.flatten))
    (whole : IsMerge SearchHit.documentId (compareHits folded sortFields) lists.flatten reference) :
    SeenInTime folded sortFields lists window size ↔
      ∀ place best, reference[place]? = some best →
        ∃ copy ∈ prefixes (window (place / size)).fetchNeeded lists,
          copy.documentId = best.documentId ∧ compareHits folded sortFields copy best = .eq := by
  constructor
  · intro inTime place best here
    have known := List.mem_of_getElem? here
    have seen := inTime best (whole.mem best known) (whole.best best known)
    rwa [whole.length_keysBefore ordered here] at seen
  · intro inTime best there unbeaten
    obtain ⟨hit, known, same⟩ := whole.complete best there
    obtain ⟨place, here⟩ := List.mem_iff_getElem?.mp known
    have hitThere := whole.mem hit known
    have tie : compareHits folded sortFields best hit = .eq :=
      ordered.eq_of_le_of_le there hitThere (unbeaten hit hitThere same)
        (whole.best hit known best there same.symm)
    have before : keysBefore SearchHit.documentId (compareHits folded sortFields) lists.flatten best =
        keysBefore SearchHit.documentId (compareHits folded sortFields) lists.flatten hit := by
      unfold keysBefore
      congr 2
      refine List.filter_congr fun other otherThere => decide_eq_decide.mpr ?_
      exact ordered.lt_iff_of_eq there hitThere otherThere tie
    obtain ⟨copy, seen, sameId, tied⟩ := inTime place hit here
    rw [before, whole.length_keysBefore ordered here]
    refine ⟨copy, seen, sameId.trans same, ?_⟩
    exact ordered.eq_trans (RankedLists.mem_of_prefixes seen) hitThere there tied
      (ordered.eq_symm there hitThere tie)

/-- All clusters respond. -/
theorem performFederatedSearch_all {clusters : List (Text × List (SearchHit F))}
    (request : SearchRequest) {defaultSortingField : Option Text}
    (parsed : parseSortFields (forwardedSortBy request defaultSortingField)
      request.hasVectorQuery = some sortFields)
    (some_ : clusters ≠ []) (below : request.window.totalNeeded ≤ maxDeepPaginationDocs) :
    ∃ failedClusters, performFederatedSearch folded
      (clusters.map fun cluster => (cluster.1, staticClient cluster.2)) request defaultSortingField =
        .ok (staticAnswer folded sortFields (clusters.map Prod.snd) request.window
          (projectionPlan request.includeFields request.excludeFields sortFields).internalOnly
          clusters.length failedClusters) := by
  have lists : (clusters.map fun cluster => (cluster.1, some cluster.2)).filterMap Prod.snd =
      clusters.map Prod.snd := by
    rw [List.filterMap_map]
    exact congrFun List.filterMap_eq_map clusters
  have clients : (clusters.map fun cluster => (cluster.1, staticClient cluster.2)) =
      (clusters.map fun cluster => (cluster.1, some cluster.2)).map fun cluster =>
        (cluster.1, clusterClient cluster.2) := by
    rw [List.map_map]
    rfl
  have responding : (clusters.map fun cluster => (cluster.1, some cluster.2)).filterMap Prod.snd ≠
      [] := by
    rw [lists]
    exact fun none_ => some_ (List.map_eq_nil_iff.mp none_)
  have answered : performFederatedSearch folded
      ((clusters.map fun cluster => (cluster.1, some cluster.2)).map fun cluster =>
        (cluster.1, clusterClient cluster.2)) request defaultSortingField = _ :=
    performFederatedSearch_static parsed responding below
  rw [lists, List.length_map] at answered
  rw [clients]
  exact ⟨_, answered⟩

/-- **Pages show every document once exactly when each is seen in time.** What a reader gets
are the hits of the first pages, with their internal fields hidden. -/
theorem pages_complete_iff {clusters : List (Text × List (SearchHit F))} {request : SearchRequest}
    {defaultSortingField : Option Text}
    (parsed : parseSortFields (forwardedSortBy request defaultSortingField)
      request.hasVectorQuery = some sortFields)
    (shards : Shards folded sortFields (clusters.map Prod.snd)) (some_ : clusters ≠ [])
    (paging : Paging) (size : ℕ) (range : 1 ≤ size ∧ size ≤ 250)
    (below : pageCount (documentCount (clusters.map Prod.snd)) size * size ≤ maxDeepPaginationDocs) :
    let lists := clusters.map Prod.snd
    let window := paging.window size range
    let search := fun number => performFederatedSearch folded
      (clusters.map fun cluster => (cluster.1, staticClient cluster.2))
      { request with window := window number } defaultSortingField
    let plan := projectionPlan request.includeFields request.excludeFields sortFields
    let shown := shownHits folded sortFields lists window size (pageCount (documentCount lists) size)
    readPages search maxDeepPaginationDocs 0 =
        some (shown.map (SearchHit.hideInternal plan.internalOnly)) ∧
      ((shown.map SearchHit.documentId).Nodup ∧
          (∀ hit ∈ lists.flatten, hit.documentId ∈ shown.map SearchHit.documentId) ↔
        SeenInTime folded sortFields lists window size) := by
  intro lists window search plan shown
  have positive : 0 < size := range.1
  have ordered := shards.ranked.ordered
  have whole := isMerge_mergeBest ordered
  have count : documentCount lists =
      (mergeBest SearchHit.documentId (compareHits folded sortFields) lists.flatten).length :=
    (length_reference whole).symm
  obtain ⟨begun, ended⟩ := pageCount_covers (documentCount lists) positive
  have pages : 0 < pageCount (documentCount lists) size := lt_max_of_lt_left Nat.one_pos
  have belowCap : ∀ number < pageCount (documentCount lists) size,
      (window number).totalNeeded ≤ maxDeepPaginationDocs := by
    intro number inside
    rw [Paging.totalNeeded_window]
    exact le_trans (Nat.mul_le_mul_right size inside) below
  constructor
  · -- each page is answered, and the last one first says that there are no more
    have each : ∀ number ≤ pageCount (documentCount lists) size - 1, ∃ response,
        search number = .ok response ∧
        response.hits = (pageAt SearchHit.documentId (compareHits folded sortFields) lists
          (fun number => (window number).fetchNeeded) size number).map
            (SearchHit.hideInternal plan.internalOnly) ∧
        (response.hasMore = true ↔ number < pageCount (documentCount lists) size - 1) := by
      intro number inside
      have cap := belowCap number (by omega)
      obtain ⟨failedClusters, answered⟩ := performFederatedSearch_all
        { request with window := window number } parsed some_ cap
      refine ⟨_, answered, ?_, ?_⟩
      · rw [shards.staticAnswer_hits, Paging.startIdx_window, Paging.pageSize_window]
        rfl
      · rw [shards.hasMore_iff whole cap, Paging.totalNeeded_window, ← count,
          ← lt_pageCount_iff positive]
        omega
    have enough : pageCount (documentCount lists) size ≤ maxDeepPaginationDocs :=
      le_trans (Nat.le_mul_of_pos_right _ positive) below
    rw [readPages_eq each maxDeepPaginationDocs 0 (Nat.zero_le _) (by omega), Nat.sub_zero,
      Nat.sub_add_cancel pages, ← List.range_eq_range']
    show _ = some (List.map _ (List.flatten _))
    rw [List.map_flatten, List.map_map]
    rfl
  · rw [seenInTime_iff ordered whole]
    refine shards.ranked.firstPages_complete_iff whole (fun number inside => ?_) positive
      (fun number inside earlier before => ?_) ?_ ?_
    · have within := (SearchWindow.end_le_fetchNeeded (belowCap number inside)).2.1
      rwa [Paging.totalNeeded_window] at within
    · unfold SearchWindow.fetchNeeded
      rw [Paging.totalNeeded_window, Paging.totalNeeded_window]
      exact min_le_min_right _ (Nat.succ_le_succ (Nat.mul_le_mul_right size (Nat.succ_le_succ before)))
    · rwa [← count]
    · rwa [← count]

theorem two_in_range : 1 ≤ 2 ∧ 2 ≤ 250 := by
  decide

theorem pages_complete_iff_overlapping : (readPages (fun number =>
    performFederatedSearch (fun _ => [])
      (overlapping.map fun cluster => (cluster.1, staticClient cluster.2))
      { byScore (Paging.offsets.window 2 two_in_range 0) with
        window := Paging.offsets.window 2 two_in_range number } none)
      maxDeepPaginationDocs 0).isSome = true := by
  have read := (pages_complete_iff (parse_byScore (Paging.offsets.window 2 two_in_range 0))
    sortedShards_overlapping.shards (by decide +kernel) .offsets 2 two_in_range
    (by decide +kernel)).1
  rw [read]
  rfl

/-- **A document is skipped**, and another one shown twice, when a cluster breaks ties the
other way. -/
theorem tie_skips_document :
    let list := [scored "c" 1, scored "b" 1, scored "a" 1]
    list.Pairwise (fun first second => compareFields (fun _ => []) scoreFields first second ≠ .gt) ∧
      (readPages (fun number => performFederatedSearch (fun _ => [])
        [(chars "cluster", staticClient list)]
        (byScore (Paging.pages.window 1 (by decide) number)) none) 10000 0).map
          (List.map SearchHit.documentId) = some [chars "b", chars "b", chars "c"] := by
  decide +kernel

end ImposbroSearch.Search
