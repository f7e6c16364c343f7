import ImposbroSearch.Search.FederatedSearch

/-!
# The window of a cluster

`_execute_typesense_search_window` asks a cluster for page after page. Here the loop has no
bound but its own: a round that does not end it adds a hit. The requests it makes are kept
beside what it returns.
-/

namespace ImposbroSearch.Search

open ImposbroSearch.Foundation

variable {F : Type}

structure PageRequest where
  page : ℕ
  perPage : ℕ
  deriving DecidableEq

/-- What is asked of a cluster, and what is returned. -/
structure Fetched (F : Type) where
  requests : List PageRequest
  result : Option (ShardResult F)

/-- The loop, from its variables on. -/
def fetchPages (client : ShardClient F) (totalNeeded perPage : ℕ) (page : ℕ)
    (hits : List (SearchHit F)) (totalFound : Option ℕ) : Fetched F :=
  if hits.length < totalNeeded then
    match client page perPage with
    | none => ⟨[⟨page, perPage⟩], none⟩
    | some result =>
      let total := totalFound.getD result.found
      if result.hits = [] ∨ result.hits.length < perPage ∨
          total ≤ hits.length + result.hits.length then
        ⟨[⟨page, perPage⟩], some ⟨total, (hits ++ result.hits).take totalNeeded⟩⟩
      else
        let rest := fetchPages client totalNeeded perPage (page + 1) (hits ++ result.hits)
          (some total)
        ⟨⟨page, perPage⟩ :: rest.requests, rest.result⟩
  else ⟨[], some ⟨totalFound.getD 0, hits.take totalNeeded⟩⟩
termination_by totalNeeded - hits.length
decreasing_by
  rename_i more last
  have filled : result.hits.length ≠ 0 := fun none_ =>
    last (Or.inl (List.eq_nil_of_length_eq_zero none_))
  rw [List.length_append]
  omega

/-- `_execute_typesense_search_window` -/
def fetchWindow (client : ShardClient F) (totalNeeded : ℕ) : Fetched F :=
  fetchPages client totalNeeded (min totalNeeded typesenseMaxPerPage) 1 [] none

/-! ## What is requested -/

/-- All pages have one size, and each is the next one. -/
theorem requests_fetchPages (client : ShardClient F) (totalNeeded perPage page : ℕ) (hits : List (SearchHit F)) (totalFound : Option ℕ) :
    ∃ count, (fetchPages client totalNeeded perPage page hits totalFound).requests =
      (List.range' page count).map fun number => ⟨number, perPage⟩ := by
  fun_induction fetchPages client totalNeeded perPage page hits totalFound with
  | case1 page hits totalFound more failed => exact ⟨1, rfl⟩
  | case2 page hits totalFound more result answered total last => exact ⟨1, rfl⟩
  | case3 page hits totalFound more result answered total last rest ih =>
      obtain ⟨count, next⟩ := ih
      refine ⟨count + 1, ?_⟩
      rw [List.range'_succ, List.map_cons, ← next]
  | case4 page hits totalFound enough => exact ⟨0, rfl⟩

variable {client : ShardClient F} {totalNeeded perPage : ℕ}

/-- The loop with a bound never reaches it, where the bound is what is needed. -/
theorem result_fetchPages (fuel page : ℕ) (hits : List (SearchHit F)) (totalFound : Option ℕ)
    (enough : totalNeeded ≤ hits.length + fuel) :
    (fetchPages client totalNeeded perPage page hits totalFound).result =
      windowLoop client totalNeeded perPage fuel page hits totalFound := by
  induction fuel generalizing page hits totalFound with
  | zero =>
      unfold fetchPages windowLoop
      rw [if_neg (by omega)]
  | succ fuel ih =>
      unfold fetchPages windowLoop
      by_cases more : hits.length < totalNeeded
      · rw [if_pos more, if_pos more]
        cases client page perPage with
        | none => rfl
        | some result =>
            simp only [List.length_append]
            split
            case isTrue => rfl
            case isFalse goesOn =>
              refine ih (page + 1) _ _ ?_
              have filled : result.hits.length ≠ 0 := fun none_ =>
                goesOn (Or.inl (List.eq_nil_of_length_eq_zero none_))
              rw [List.length_append]
              omega
      · rw [if_neg more, if_neg more]

theorem result_fetchWindow (client : ShardClient F) (totalNeeded : ℕ) :
    (fetchWindow client totalNeeded).result = executeSearchWindow client totalNeeded :=
  result_fetchPages totalNeeded 1 [] none (by omega)

/-! ## What is returned -/

/-- The cluster serves these hits by pages: on every page of a size that it allows, the
hits of the page, and how many there are. -/
def Serves (client : ShardClient F) (list : List (SearchHit F)) : Prop :=
  ∀ page perPage, 1 ≤ page → 1 ≤ perPage → perPage ≤ typesenseMaxPerPage →
    client page perPage = some ⟨list.length, (list.drop ((page - 1) * perPage)).take perPage⟩

/-- The loop sees nothing of a cluster but the pages it asks for. -/
theorem windowLoop_congr {other : ShardClient F} (fuel page : ℕ) (hits : List (SearchHit F))
    (totalFound : Option ℕ)
    (same : ∀ number, page ≤ number → client number perPage = other number perPage) :
    windowLoop client totalNeeded perPage fuel page hits totalFound =
      windowLoop other totalNeeded perPage fuel page hits totalFound := by
  induction fuel generalizing page hits totalFound with
  | zero => rfl
  | succ fuel ih =>
      unfold windowLoop
      rw [same page le_rfl]
      cases other page perPage with
      | none => rfl
      | some result =>
          simp only
          rw [ih (page + 1) _ _ fun number after => same number (by omega)]

/-- **The window of a cluster.** The loop ends with the first hits of the cluster, as many
as are needed, in their order, and with the number of its hits. It asked for the first
pages, one after the other, of one size that the cluster allows. -/
theorem shard_window (client : ShardClient F) {list : List (SearchHit F)}
    (served : Serves client list) (needed : 1 ≤ totalNeeded) :
    (fetchWindow client totalNeeded).result = some ⟨list.length, list.take totalNeeded⟩ ∧
      (∀ request ∈ (fetchWindow client totalNeeded).requests,
        1 ≤ request.perPage ∧ request.perPage ≤ 250) ∧
      ∃ count, (fetchWindow client totalNeeded).requests.map PageRequest.page =
        List.range' 1 count := by
  have size : 1 ≤ min totalNeeded typesenseMaxPerPage := by
    unfold typesenseMaxPerPage
    omega
  obtain ⟨count, requests⟩ := requests_fetchPages client totalNeeded
    (min totalNeeded typesenseMaxPerPage) 1 [] none
  refine ⟨?_, ?_, count, ?_⟩
  · rw [result_fetchWindow, ← executeSearchWindow_static list needed]
    refine windowLoop_congr totalNeeded 1 [] none fun number after => ?_
    exact served number _ after size (min_le_right _ _)
  · intro request asked
    unfold fetchWindow at asked
    rw [requests] at asked
    obtain ⟨number, -, rfl⟩ := List.mem_map.mp asked
    exact ⟨size, min_le_right _ _⟩
  · unfold fetchWindow
    rw [requests, List.map_map]
    exact List.map_id _

/-- So many hits, with their numbers as ids. -/
def numbered (count : ℕ) : List (SearchHit SampleFloat) :=
  (List.range count).map fun n => ⟨.object [(chars "id", .str (natText n))], none, none, .null⟩

/-- Two full pages and a part of a third one. -/
theorem shard_window_pages :
    (fetchWindow (staticClient (numbered 700)) 600).result =
      some ⟨(numbered 700).length, (numbered 700).take 600⟩ :=
  (shard_window (staticClient (numbered 700)) (fun _ _ _ _ _ => rfl) (by decide)).1

end ImposbroSearch.Search
