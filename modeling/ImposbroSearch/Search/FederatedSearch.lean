import ImposbroSearch.Foundation.MergedPages
import ImposbroSearch.Search.Projection

/-!
# Federated search

A search reads a window of each cluster of the collection, page by page up to the hits that
the answer needs and one more, merges what came, and answers with a part of the merge.
Clusters that fail are left out. What a cluster answers to a page of the search is a
parameter.
-/

namespace ImposbroSearch.Search

open ImposbroSearch.Foundation

variable {F : Type}

def maxDeepPaginationDocs : ℕ := 10000

def typesenseMaxPerPage : ℕ := 250

/-! ## Windows of a cluster -/

structure ShardResult (F : Type) where
  found : ℕ
  hits : List (SearchHit F)

/-- The answer of a cluster to a page of the search, or an exception. The rest of the
search parameters is the same for all pages. -/
abbrev ShardClient (F : Type) := (page perPage : ℕ) → Option (ShardResult F)

/-- The loop of `_execute_typesense_search_window`. Each round that does not end it adds a
hit. -/
def windowLoop (client : ShardClient F) (totalNeeded perPage : ℕ) :
    (fuel page : ℕ) → List (SearchHit F) → Option ℕ → Option (ShardResult F)
  | 0, _, hits, totalFound => some ⟨totalFound.getD 0, hits.take totalNeeded⟩
  | fuel + 1, page, hits, totalFound =>
    if hits.length < totalNeeded then
      match client page perPage with
      | none => none
      | some result =>
        let totalFound := totalFound.getD result.found
        let hits := hits ++ result.hits
        if result.hits = [] ∨ result.hits.length < perPage ∨ totalFound ≤ hits.length then
          some ⟨totalFound, hits.take totalNeeded⟩
        else windowLoop client totalNeeded perPage fuel (page + 1) hits (some totalFound)
    else some ⟨totalFound.getD 0, hits.take totalNeeded⟩

/-- `_execute_typesense_search_window` -/
def executeSearchWindow (client : ShardClient F) (totalNeeded : ℕ) : Option (ShardResult F) :=
  windowLoop client totalNeeded (min totalNeeded typesenseMaxPerPage) totalNeeded 1 [] none

/-! ## Requests -/

/-- The window of a search: a page, or an offset with a limit. -/
inductive SearchWindow where
  | page (number perPage : ℕ) (positive : 1 ≤ number) (range : 1 ≤ perPage ∧ perPage ≤ 250)
  | offset (start limit : ℕ) (range : 1 ≤ limit ∧ limit ≤ 250)
  deriving DecidableEq

namespace SearchWindow

def startIdx : SearchWindow → ℕ
  | .page number perPage _ _ => (number - 1) * perPage
  | .offset start _ _ => start

def pageSize : SearchWindow → ℕ
  | .page _ perPage _ _ => perPage
  | .offset _ limit _ => limit

def totalNeeded : SearchWindow → ℕ
  | .page number perPage _ _ => number * perPage
  | .offset start limit _ => start + limit

def effectivePage : SearchWindow → ℕ
  | .page number _ _ _ => number
  | .offset start limit _ => start / limit + 1

/-- One hit more than the answer needs. -/
def fetchNeeded (window : SearchWindow) : ℕ := min (window.totalNeeded + 1) maxDeepPaginationDocs

end SearchWindow

structure SearchRequest where
  sortBy : Option Text
  hasVectorQuery : Bool
  includeFields : Option Text
  excludeFields : Option Text
  window : SearchWindow

/-- The order that is asked of the clusters, where the request names none: the default sorting
field of the schema is the second key. -/
def forwardedSortBy (request : SearchRequest) (defaultSortingField : Option Text) : Text :=
  let sortBy := request.sortBy.getD []
  if sortBy = [] ∧ ¬request.hasVectorQuery then
    match defaultSortingField with
    | some (c :: field) => chars "_text_match:desc," ++ (c :: field) ++ chars ":desc"
    | _ => chars "_text_match:desc"
  else sortBy

/-! ## Answers -/

inductive FoundRelation where
  | exact
  | upperBound
  | windowLowerBound
  deriving DecidableEq, Repr

inductive SearchError where
  /-- 404: no cluster has the collection. -/
  | notFound
  /-- 400: an order that is not supported. -/
  | badSort
  /-- 400: the window is beyond the cap. -/
  | windowTooLarge
  /-- 503: the search failed on all clusters. -/
  | allFailed
  deriving DecidableEq, Repr

structure SearchResponse (F : Type) where
  found : ℕ
  foundRelation : FoundRelation
  page : ℕ
  perPage : ℕ
  hits : List (SearchHit F)
  rawFound : ℕ
  deduplicatedFound : ℕ
  clustersQueried : ℕ
  clustersResponded : ℕ
  failedClusters : List Text
  hasMore : Bool
  nextOffset : Option ℕ

/-- `_hide_internal_projection_fields` -/
def SearchHit.hideInternal (internalOnly : List Text) (hit : SearchHit F) : SearchHit F :=
  if internalOnly = [] then hit
  else { hit with document := hideInternalProjectionFields internalOnly hit.document }

/-- What the clusters returned. -/
structure Gathered (F : Type) where
  allHits : List (SearchHit F)
  totalFound : ℕ
  successfulClusters : ℕ
  failedClusters : List Text

/-- The results of the clusters, in the order of the clusters. -/
def gather (clients : List (Text × ShardClient F)) (fetchNeeded : ℕ) : Gathered F :=
  clients.foldl (fun gathered client =>
    match executeSearchWindow client.2 fetchNeeded with
    | some result =>
      { gathered with
        allHits := gathered.allHits ++ result.hits
        totalFound := gathered.totalFound + result.found
        successfulClusters := gathered.successfulClusters + 1 }
    | none => { gathered with failedClusters := gathered.failedClusters ++ [client.1] })
    ⟨[], 0, 0, []⟩

section Search

variable [PyFloat F] (folded : Json F → Text)

/-- The hits that are deduplicated: those with an id. -/
def withIds (hits : List (SearchHit F)) : List (SearchHit F) :=
  hits.filter fun hit => hit.documentId ≠ []

/-- The best hit of each document, in order. -/
def sortedHits (sortFields : List SortField) (allHits : List (SearchHit F)) : List (SearchHit F) :=
  mergeBest SearchHit.documentId (compareHits folded sortFields) (withIds allHits)

/-- Some id was seen twice. -/
def duplicatesSeen (allHits : List (SearchHit F)) : Bool :=
  ¬((withIds allHits).map SearchHit.documentId).Nodup

/-- What is answered when the clusters have returned. -/
def answer (window : SearchWindow) (internalOnly : List Text) (sortFields : List SortField)
    (clusters : ℕ) (gathered : Gathered F) : SearchResponse F :=
  let sorted := sortedHits folded sortFields gathered.allHits
  let duplicates := duplicatesSeen gathered.allHits
  let endIdx := window.startIdx + window.pageSize
  let hasMore := endIdx < sorted.length || gathered.allHits.length < gathered.totalFound
  { found := if duplicates then sorted.length else gathered.totalFound
    foundRelation :=
      if duplicates then .windowLowerBound else if clusters = 1 then .exact else .upperBound
    page := window.effectivePage
    perPage := window.pageSize
    hits := ((sorted.drop window.startIdx).take window.pageSize).map
      (SearchHit.hideInternal internalOnly)
    rawFound := gathered.totalFound
    deduplicatedFound := sorted.length
    clustersQueried := clusters
    clustersResponded := gathered.successfulClusters
    failedClusters := gathered.failedClusters
    hasMore
    nextOffset :=
      match window with
      | .page _ _ _ _ => none
      | .offset start limit _ =>
        if hasMore ∧ start + limit + limit ≤ maxDeepPaginationDocs then some (start + limit)
        else none }

/-- `_perform_federated_search` -/
def performFederatedSearch (clients : List (Text × ShardClient F)) (request : SearchRequest)
    (defaultSortingField : Option Text) : Except SearchError (SearchResponse F) :=
  if clients = [] then .error .notFound
  else
    match parseSortFields (forwardedSortBy request defaultSortingField) request.hasVectorQuery with
    | none => .error .badSort
    | some sortFields =>
      let plan := projectionPlan request.includeFields request.excludeFields sortFields
      let window := request.window
      if maxDeepPaginationDocs < window.totalNeeded then .error .windowTooLarge
      else
        let gathered := gather clients window.fetchNeeded
        if gathered.successfulClusters = 0 then .error .allFailed
        else .ok (answer folded window plan.internalOnly sortFields clients.length gathered)

end Search

/-! ## Clusters with static contents -/

/-- A cluster that has these hits, in this order. -/
def staticClient (list : List (SearchHit F)) : ShardClient F := fun page perPage =>
  some ⟨list.length, (list.drop ((page - 1) * perPage)).take perPage⟩

/-- A cluster that fails. -/
def failedClient : ShardClient F := fun _ _ => none

/-- After so many full pages the hits are the beginning of the list. -/
theorem windowLoop_static (list : List (SearchHit F)) {totalNeeded perPage : ℕ}
    (positive : 0 < perPage) (needed : 0 < totalNeeded) (fuel pages : ℕ)
    (enough : totalNeeded ≤ pages * perPage + fuel) :
    windowLoop (staticClient list) totalNeeded perPage fuel (pages + 1)
      (list.take (pages * perPage)) (if pages = 0 then none else some list.length) =
        some ⟨list.length, list.take totalNeeded⟩ := by
  have done : ∀ count, totalNeeded ≤ count →
      (list.take count).take totalNeeded = list.take totalNeeded := by
    intro count covers
    rw [List.take_take, Nat.min_eq_left covers]
  induction fuel generalizing pages with
  | zero =>
      have begun : pages ≠ 0 := fun none_ => by rw [none_] at enough; omega
      unfold windowLoop
      rw [if_neg begun, done (pages * perPage) enough]
      rfl
  | succ fuel ih =>
      unfold windowLoop
      by_cases more : (list.take (pages * perPage)).length < totalNeeded
      · have joined : list.take (pages * perPage) ++ (list.drop (pages * perPage)).take perPage =
            list.take ((pages + 1) * perPage) := by
          rw [Nat.succ_mul, List.take_add]
        have total : (if pages = 0 then none else some list.length).getD list.length =
            list.length := by
          split
          · rfl
          · rfl
        rw [if_pos more]
        unfold staticClient
        simp only [Nat.add_sub_cancel, joined, total]
        split
        case isTrue last =>
          -- the list has no more hits
          have all : list.length ≤ (pages + 1) * perPage := by
            rw [Nat.succ_mul]
            rcases last with empty | short | reached
            · have length := congrArg List.length empty
              rw [List.length_take, List.length_drop, List.length_nil] at length
              omega
            · rw [List.length_take, List.length_drop] at short
              omega
            · rw [List.length_take, Nat.succ_mul] at reached
              omega
          rw [List.take_of_length_le all]
        case isFalse goesOn =>
          have next := ih (pages + 1) (by rw [Nat.succ_mul]; omega)
          rw [if_neg (Nat.succ_ne_zero pages)] at next
          exact next
      · have begun : pages ≠ 0 := by
          intro none_
          rw [none_, Nat.zero_mul, List.take_zero] at more
          exact more needed
        rw [if_neg more, if_neg begun, List.length_take] at *
        rw [done _ (by omega)]
        rfl

/-- **The window of a static cluster** is the beginning of its hits. -/
theorem executeSearchWindow_static (list : List (SearchHit F)) {totalNeeded : ℕ}
    (needed : 0 < totalNeeded) :
    executeSearchWindow (staticClient list) totalNeeded =
      some ⟨list.length, list.take totalNeeded⟩ := by
  have perPage : 0 < min totalNeeded typesenseMaxPerPage := by
    unfold typesenseMaxPerPage
    omega
  have run := windowLoop_static list perPage needed totalNeeded 0 (by omega)
  rw [Nat.zero_mul, List.take_zero, if_pos rfl] at run
  exact run

theorem executeSearchWindow_failed {totalNeeded : ℕ} (needed : 0 < totalNeeded) :
    executeSearchWindow (failedClient : ShardClient F) totalNeeded = none := by
  obtain ⟨fuel, rfl⟩ := Nat.exists_eq_succ_of_ne_zero needed.ne'
  unfold executeSearchWindow windowLoop
  rw [if_pos (by rw [List.length_nil]; omega)]
  rfl

/-- A cluster that responds with its hits, or fails. -/
def clusterClient : Option (List (SearchHit F)) → ShardClient F
  | some list => staticClient list
  | none => failedClient

/-- What is gathered of clusters that respond or fail. -/
theorem gather_clusterClient (clusters : List (Text × Option (List (SearchHit F)))) {needed : ℕ}
    (positive : 0 < needed) :
    gather (clusters.map fun cluster => (cluster.1, clusterClient cluster.2)) needed =
      { allHits := prefixes needed (clusters.filterMap Prod.snd)
        totalFound := ((clusters.filterMap Prod.snd).map List.length).sum
        successfulClusters := (clusters.filterMap Prod.snd).length
        failedClusters := (clusters.filter fun cluster => cluster.2.isNone).map Prod.fst } := by
  unfold gather
  induction clusters using List.reverseRecOn with
  | nil => rfl
  | append_singleton clusters cluster ih =>
      obtain ⟨name, list⟩ := cluster
      rw [List.map_append, List.foldl_append, ih]
      cases list with
      | none => simp [clusterClient, executeSearchWindow_failed positive]
      | some list => simp [clusterClient, executeSearchWindow_static list positive, prefixes]

/-! ## A small collection -/

/-- A hit with an id and a score. -/
def scored (id : String) (score : ℤ) : SearchHit SampleFloat where
  document := .object [(chars "id", .str (chars id))]
  textMatch := some (.int score)
  vectorDistance := none
  highlights := .null

/-- A keyword search in the order of the scores. -/
def byScore (window : SearchWindow) : SearchRequest where
  sortBy := none
  hasVectorQuery := false
  includeFields := none
  excludeFields := none
  window

def scoreFields : List SortField := [⟨chars "_text_match", .desc⟩]

theorem parse_byScore (window : SearchWindow) :
    parseSortFields (forwardedSortBy (byScore window) none) (byScore window).hasVectorQuery =
      some scoreFields := by
  show parseSortFields (chars "_text_match:desc") false = some scoreFields
  decide +kernel

theorem homogeneous_scored {hits : List (SearchHit SampleFloat)}
    (each : ∀ hit ∈ hits, ∃ id score, hit = scored id score) :
    ∀ sort ∈ scoreFields, Homogeneous hits sort.field := by
  intro sort member
  obtain rfl := List.mem_singleton.mp member
  refine Or.inl fun hit listed value here => ?_
  obtain ⟨id, score, rfl⟩ := each hit listed
  obtain rfl : Json.int score = value := by
    have stored : (scored id score).sortValue (chars "_text_match") = some (.int score) := rfl
    exact Option.some.inj (stored.symm.trans (Option.mem_def.mp here))
  exact ⟨.finite score, rfl, fun nan => nomatch nan⟩

end ImposbroSearch.Search
