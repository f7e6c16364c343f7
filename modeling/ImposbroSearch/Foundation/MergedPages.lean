import ImposbroSearch.Foundation.BestMerge

/-!
# Pages of a merge of prefixes

A page is cut from the merge of prefixes of ranked lists, and each page takes longer
prefixes. The lists know a coarse comparison only; the merge breaks its ties by the keys.

A hit that stands in such a merge before the length of the prefixes is the best one of its
key, since the best one, if it were not seen, would have as many hits before it. So a page
never shows a key before its place in the whole merge, and pages that show every key once
show it at its place: that is, they do so exactly when every best hit is in the prefixes of
the page where it belongs.
-/

namespace ImposbroSearch.Foundation

section Pages

variable {Hit Key : Type*} [DecidableEq Key] {key : Hit → Key} {cmp coarse : Hit → Hit → Ordering}
  {lists : List (List Hit)} {merged : List Hit} {count : ℕ}

/-- What is seen of the lists. -/
def prefixes (count : ℕ) (lists : List (List Hit)) : List Hit :=
  (lists.map fun list => list.take count).flatten

omit [DecidableEq Key] in
theorem mem_prefixes {hit : Hit} :
    hit ∈ prefixes count lists ↔ ∃ list ∈ lists, hit ∈ list.take count := by
  simp [prefixes]

/-- Lists in an order of the coarse comparison, which the other one refines by keys. -/
structure RankedLists (key : Hit → Key) (cmp coarse : Hit → Hit → Ordering)
    (lists : List (List Hit)) : Prop where
  ordered : OrderedOn key cmp (· ∈ lists.flatten)
  ranks : RanksOn coarse (· ∈ lists.flatten)
  refines : ∀ first second, coarse first second = .lt → cmp first second = .lt
  byKeys : ∀ first second, key first = key second → cmp first second = coarse first second
  sorted : ∀ list ∈ lists, list.Pairwise fun first second => coarse first second ≠ .gt
  distinct : ∀ list ∈ lists, (list.map key).Nodup

namespace RankedLists

omit [DecidableEq Key] in
theorem mem_of_prefixes {hit : Hit} (member : hit ∈ prefixes count lists) : hit ∈ lists.flatten := by
  obtain ⟨list, listed, there⟩ := mem_prefixes.mp member
  exact List.mem_flatten.mpr ⟨list, listed, List.mem_of_mem_take there⟩

theorem isMerge_prefixes (ranked : RankedLists key cmp coarse lists) (count : ℕ) :
    IsMerge key cmp (prefixes count lists) (mergeBest key cmp (prefixes count lists)) :=
  isMerge_mergeBest (ranked.ordered.mono fun _ => mem_of_prefixes)

/-! ## How much is seen -/

/-- There are as many keys as a list has hits. -/
theorem take_length_le (ranked : RankedLists key cmp coarse lists) (count : ℕ) {list : List Hit}
    (listed : list ∈ lists) :
    min count list.length ≤ (mergeBest key cmp (prefixes count lists)).length := by
  rw [← List.length_take]
  refine (ranked.isMerge_prefixes count).length_le
    (fun hit there => mem_prefixes.mpr ⟨list, listed, there⟩) ?_
  rw [List.map_take]
  exact (List.take_sublist _ _).nodup (ranked.distinct list listed)

omit [DecidableEq Key] in
theorem prefixes_eq_of_short (short : ∀ list ∈ lists, list.length ≤ count) :
    prefixes count lists = lists.flatten := by
  unfold prefixes
  congr 1
  exact (List.map_congr_left fun list listed => List.take_of_length_le (short list listed)).trans
    (List.map_id lists)

theorem length_merge_le (ranked : RankedLists key cmp coarse lists)
    (whole : IsMerge key cmp lists.flatten merged) :
    (mergeBest key cmp (prefixes count lists)).length ≤ merged.length :=
  whole.length_le (fun hit there => mem_of_prefixes ((ranked.isMerge_prefixes count).mem hit there))
    (ranked.isMerge_prefixes count).nodup

/-- **Prefixes of a length** show as many keys, if there are as many. -/
theorem min_le_length_merge (ranked : RankedLists key cmp coarse lists)
    (whole : IsMerge key cmp lists.flatten merged) (count : ℕ) :
    min count merged.length ≤ (mergeBest key cmp (prefixes count lists)).length := by
  by_cases short : ∀ list ∈ lists, list.length ≤ count
  · have all := ranked.isMerge_prefixes count
    rw [prefixes_eq_of_short short] at all ⊢
    exact le_trans (min_le_right _ _) (all.length_le whole.mem whole.nodup)
  · obtain ⟨list, listed, long⟩ := by simpa using short
    have enough := ranked.take_length_le count listed
    omega

omit [DecidableEq Key] in
theorem length_prefixes_le (count : ℕ) (lists : List (List Hit)) :
    (prefixes count lists).length ≤ (lists.map List.length).sum := by
  unfold prefixes
  induction lists with
  | nil => exact le_rfl
  | cons list lists ih =>
      rw [List.map_cons, List.flatten_cons, List.length_append, List.length_take, List.map_cons,
        List.sum_cons]
      omega

omit [DecidableEq Key] in
/-- Less than everything is seen when a list is longer than its prefix. -/
theorem length_prefixes_lt_iff :
    (prefixes count lists).length < (lists.map List.length).sum ↔ ∃ list ∈ lists, count < list.length := by
  induction lists with
  | nil => simp [prefixes]
  | cons list lists ih =>
      have most := length_prefixes_le count lists
      have joined : (prefixes count (list :: lists)).length =
          min count list.length + (prefixes count lists).length := by
        unfold prefixes
        rw [List.map_cons, List.flatten_cons, List.length_append, List.length_take]
      rw [joined, List.map_cons, List.sum_cons, List.exists_mem_cons_iff, ← ih]
      omega

/-- **There is more behind a place** when the merge of the prefixes has more, or when there
is more than is seen. -/
theorem more_iff (ranked : RankedLists key cmp coarse lists)
    (whole : IsMerge key cmp lists.flatten merged) {place : ℕ} (within : place ≤ count) :
    place < (mergeBest key cmp (prefixes count lists)).length ∨
        (prefixes count lists).length < (lists.map List.length).sum ↔ place < merged.length := by
  constructor
  · rintro (more | unseen)
    · exact lt_of_lt_of_le more (ranked.length_merge_le whole)
    · obtain ⟨list, listed, long⟩ := length_prefixes_lt_iff.mp unseen
      have enough := whole.length_le
        (fun hit there => List.mem_flatten.mpr ⟨list, listed, there⟩) (ranked.distinct list listed)
      omega
  · intro more
    by_contra none_
    obtain ⟨settled, seen⟩ := not_or.mp none_
    have short : ∀ list ∈ lists, list.length ≤ count := by
      intro list listed
      by_contra long
      exact seen (length_prefixes_lt_iff.mpr ⟨list, listed, by omega⟩)
    have all := ranked.isMerge_prefixes count
    rw [prefixes_eq_of_short short] at all settled
    exact settled (lt_of_lt_of_le more (all.length_le whole.mem whole.nodup))

/-! ## Places -/

/-- **Before the length of the prefixes** only best hits stand. -/
theorem best_of_getElem? (ranked : RankedLists key cmp coarse lists)
    (whole : IsMerge key cmp lists.flatten merged) {index : ℕ} {hit best : Hit}
    (here : (mergeBest key cmp (prefixes count lists))[index]? = some hit) (early : index < count)
    (known : best ∈ merged) (same : key best = key hit) : cmp hit best = .eq := by
  have seen := ranked.isMerge_prefixes count
  have hitSeen : hit ∈ prefixes count lists := seen.mem hit (List.mem_of_getElem? here)
  have hitHere := mem_of_prefixes hitSeen
  have bestHere := whole.mem best known
  have le := whole.best best known hit hitHere same.symm
  by_contra differs
  have better : cmp best hit = .lt := by
    cases against : cmp best hit with
    | lt => rfl
    | gt => exact absurd against le
    | eq =>
        rw [ranked.ordered.swap bestHere hitHere, against] at differs
        exact absurd rfl differs
  obtain ⟨list, listed, there⟩ := List.mem_flatten.mp bestHere
  have unseen : best ∉ list.take count := by
    intro member
    have against := seen.best hit (List.mem_of_getElem? here) best
      (mem_prefixes.mpr ⟨list, listed, member⟩) same
    rw [ranked.ordered.swap bestHere hitHere, better] at against
    exact against rfl
  have behind : best ∈ list.drop count := by
    rw [← List.take_append_drop count list] at there
    exact (List.mem_append.mp there).resolve_left unseen
  have long : (list.take count).length = count := by
    rw [List.length_take]
    have some_ := List.length_pos_of_mem behind
    rw [List.length_drop] at some_
    omega
  -- all that is seen of that list stands before the hit
  have crowd := seen.length_le_of_before (ranked.ordered.mono fun _ => mem_of_prefixes) here _
    (fun other member => mem_prefixes.mpr ⟨list, listed, member⟩)
    (by
      rw [List.map_take]
      exact (List.take_sublist _ _).nodup (ranked.distinct list listed))
    (fun other member => by
      have inOrder := ranked.sorted list listed
      rw [← List.take_append_drop count list, List.pairwise_append] at inOrder
      refine ranked.refines _ _ (ranked.ranks.lt_of_le_of_lt ?_ bestHere hitHere
        (inOrder.2.2 other member best behind) ?_)
      · exact List.mem_flatten.mpr ⟨list, listed, List.mem_of_mem_take member⟩
      · rw [← ranked.byKeys best hit same]
        exact better)
  omega

/-- **A key is not shown before its place.** -/
theorem not_before_its_place (ranked : RankedLists key cmp coarse lists)
    (whole : IsMerge key cmp lists.flatten merged) {index : ℕ} {hit : Hit}
    (here : (mergeBest key cmp (prefixes count lists))[index]? = some hit) (early : index < count) :
    key hit ∉ (merged.take index).map key := by
  intro member
  obtain ⟨best, before, same⟩ := List.mem_map.mp member
  have known := List.mem_of_mem_take before
  have seen := ranked.isMerge_prefixes count
  have hitHere := mem_of_prefixes (seen.mem hit (List.mem_of_getElem? here))
  have tie := ranked.best_of_getElem? whole here early known same
  obtain ⟨place, at_⟩ := List.mem_iff_getElem?.mp before
  rw [List.getElem?_take] at at_
  split at at_
  case isFalse => cases at_
  case isTrue sooner =>
  have inRange := (List.getElem?_eq_some_iff.mp here).1
  have crowd := whole.length_le_of_before ranked.ordered at_
    ((mergeBest key cmp (prefixes count lists)).take index) ?_ ?_ ?_
  · rw [List.length_take] at crowd
    omega
  · exact fun other there => mem_of_prefixes (seen.mem other (List.mem_of_mem_take there))
  · rw [List.map_take]
    exact (List.take_sublist _ _).nodup seen.nodup
  · intro other there
    obtain ⟨position, there⟩ := List.mem_iff_getElem?.mp there
    rw [List.getElem?_take] at there
    split at there
    case isFalse => cases there
    case isTrue sooner' =>
    obtain ⟨inRange', rfl⟩ := List.getElem?_eq_some_iff.mp there
    obtain ⟨_, rfl⟩ := List.getElem?_eq_some_iff.mp here
    have lt := List.pairwise_iff_getElem.mp seen.sorted position index inRange' inRange sooner'
    exact ranked.ordered.lt_of_lt_of_le (mem_of_prefixes (seen.mem _ (List.getElem_mem inRange')))
      hitHere (whole.mem best known) lt (by rw [tie]; decide)

/-- **Lists in the order of the merge** show its hits before the length of the prefixes. -/
theorem seen_of_sorted (ranked : RankedLists key cmp coarse lists)
    (sorted : ∀ list ∈ lists, list.Pairwise fun first second => cmp first second ≠ .gt)
    (whole : IsMerge key cmp lists.flatten merged) {place : ℕ} {best : Hit}
    (here : merged[place]? = some best) (early : place < count) : best ∈ prefixes count lists := by
  have bestHere := whole.mem best (List.mem_of_getElem? here)
  obtain ⟨list, listed, there⟩ := List.mem_flatten.mp bestHere
  obtain ⟨index, at_⟩ := List.mem_iff_getElem?.mp there
  obtain ⟨inRange, rfl⟩ := List.getElem?_eq_some_iff.mp at_
  have distinct := List.pairwise_map.mp (ranked.distinct list listed)
  -- what stands before it in the list stands before it in the merge
  have crowd := whole.length_le_of_before ranked.ordered here (list.take index)
    (fun other member => List.mem_flatten.mpr ⟨list, listed, List.mem_of_mem_take member⟩)
    (by
      rw [List.map_take]
      exact (List.take_sublist _ _).nodup (ranked.distinct list listed))
    (fun other member => by
      obtain ⟨position, there⟩ := List.mem_iff_getElem?.mp member
      rw [List.getElem?_take] at there
      split at there
      case isFalse => cases there
      case isTrue sooner =>
      obtain ⟨inRange', rfl⟩ := List.getElem?_eq_some_iff.mp there
      have le := List.pairwise_iff_getElem.mp (sorted list listed) position index inRange' inRange sooner
      have apart := List.pairwise_iff_getElem.mp distinct position index inRange' inRange sooner
      have otherHere := List.mem_flatten.mpr ⟨list, listed, List.getElem_mem inRange'⟩
      cases same : cmp list[position] list[index] with
      | lt => rfl
      | gt => exact absurd same le
      | eq => exact absurd (ranked.ordered.tie otherHere bestHere same) apart)
  rw [List.length_take] at crowd
  refine mem_prefixes.mpr ⟨list, listed, List.mem_iff_getElem?.mpr ⟨index, ?_⟩⟩
  rw [List.getElem?_take, if_pos (by omega)]
  exact at_

end RankedLists

/-! ## A row of pages -/

variable (key cmp lists) in
/-- The page of that number, from 0, and from prefixes of its own. -/
def pageAt (fetch : ℕ → ℕ) (size number : ℕ) : List Hit :=
  ((mergeBest key cmp (prefixes (fetch number) lists)).drop (number * size)).take size

variable (key cmp lists) in
def firstPages (fetch : ℕ → ℕ) (size pages : ℕ) : List Hit :=
  ((List.range pages).map (pageAt key cmp lists fetch size)).flatten

variable {fetch : ℕ → ℕ} {size pages : ℕ}

theorem firstPages_succ : firstPages key cmp lists fetch size (pages + 1) =
    firstPages key cmp lists fetch size pages ++ pageAt key cmp lists fetch size pages := by
  unfold firstPages
  rw [List.range_succ, List.map_append, List.flatten_append, List.map_singleton,
    List.flatten_singleton]

theorem length_pageAt_le (number : ℕ) : (pageAt key cmp lists fetch size number).length ≤ size :=
  List.length_take_le _ _

theorem length_firstPages_le (pages : ℕ) :
    (firstPages key cmp lists fetch size pages).length ≤ pages * size := by
  induction pages with
  | zero => simp [firstPages]
  | succ pages ih =>
      have last : (pageAt key cmp lists fetch size pages).length ≤ size := length_pageAt_le pages
      rw [firstPages_succ, List.length_append, Nat.succ_mul]
      omega

/-- A list of items of another one, none of them before its place, is that one. -/
theorem eq_of_not_before {K : Type*} {shown items : List K} (distinct : shown.Nodup)
    (inside : shown ⊆ items) (length : shown.length = items.length)
    (late : ∀ index item, shown[index]? = some item → item ∉ items.take index) : shown = items := by
  induction items using List.reverseRecOn generalizing shown with
  | nil => exact List.eq_nil_of_length_eq_zero length
  | append_singleton items last ih =>
      rcases List.eq_nil_or_concat' shown with rfl | ⟨before, final, rfl⟩
      · rw [List.length_append] at length
        cases length
      · rw [List.length_append, List.length_append, List.length_singleton, List.length_singleton,
          Nat.add_right_cancel_iff] at length
        -- the last one has only the last place left
        have same : final = last := by
          have here := late before.length final (by simp)
          rw [length, List.take_left] at here
          have there := inside (List.mem_append_right _ (List.mem_singleton_self final))
          exact List.mem_singleton.mp ((List.mem_append.mp there).resolve_left here)
        subst same
        obtain ⟨distinct', -, apart⟩ := List.nodup_append.mp distinct
        congr 1
        refine ih distinct' (fun item member => ?_) length fun index item here early => ?_
        · refine (List.mem_append.mp (inside (List.mem_append_left _ member))).resolve_right ?_
          intro single
          exact apart item member final (List.mem_singleton_self _) (List.mem_singleton.mp single)
        · have inRange := (List.getElem?_eq_some_iff.mp here).1
          refine late index item (by rw [List.getElem?_append_left inRange]; exact here) ?_
          rw [List.take_append_of_le_length (by omega)]
          exact early

theorem map_eq_of_forall₂ {K : Type*} {f : Hit → K} {first second : List Hit}
    (same : List.Forall₂ (fun left right => f left = f right) first second) :
    first.map f = second.map f := by
  induction same with
  | nil => rfl
  | cons here _ ih => rw [List.map_cons, List.map_cons, here, ih]

namespace RankedLists

variable (ranked : RankedLists key cmp coarse lists) (whole : IsMerge key cmp lists.flatten merged)
  (reach : ∀ number < pages, (number + 1) * size ≤ fetch number)

include ranked whole reach

/-- Pages that are not the last are full. -/
theorem length_firstPages (number : ℕ) (inside : number ≤ pages) (full : number * size ≤ merged.length) :
    (firstPages key cmp lists fetch size number).length = number * size := by
  induction number with
  | zero => simp [firstPages]
  | succ number ih =>
      have before := ih (by omega) (by rw [Nat.succ_mul] at full; omega)
      have enough := ranked.min_le_length_merge whole (fetch number)
      have here := reach number (by omega)
      rw [firstPages_succ, List.length_append, before, pageAt, List.length_take, List.length_drop]
      rw [Nat.succ_mul] at full here ⊢
      omega

/-- What is shown at a place is at that place of the merge for its page. -/
theorem getElem?_firstPages {number index : ℕ} (inside : number ≤ pages)
    (full : (number - 1) * size ≤ merged.length) (here : index < number * size) :
    (firstPages key cmp lists fetch size number)[index]? =
      (mergeBest key cmp (prefixes (fetch (index / size)) lists))[index]? := by
  induction number with
  | zero => omega
  | succ number ih =>
      rw [Nat.add_sub_cancel] at full
      have before := ranked.length_firstPages whole reach number (by omega) full
      rw [firstPages_succ]
      by_cases early : index < number * size
      · rw [List.getElem?_append_left (by omega)]
        refine ih (by omega) ?_ early
        exact le_trans (Nat.mul_le_mul_right _ (Nat.sub_le _ _)) full
      · rw [List.getElem?_append_right (by omega), before, pageAt, List.getElem?_take,
          if_pos (by rw [Nat.succ_mul] at here; omega), List.getElem?_drop]
        have page : index / size = number := by
          refine Nat.div_eq_of_lt_le ?_ ?_
          · omega
          · exact here
        rw [page]
        congr 1
        omega

/-- **Pages show every key once exactly when** each best hit is seen on the page where it
belongs. -/
theorem firstPages_complete_iff (positive : 0 < size)
    (longer : ∀ number < pages, ∀ earlier ≤ number, fetch earlier ≤ fetch number)
    (begun : (pages - 1) * size ≤ merged.length) (ended : merged.length ≤ pages * size) :
    ((firstPages key cmp lists fetch size pages).map key).Nodup ∧
        (∀ hit ∈ lists.flatten, key hit ∈ (firstPages key cmp lists fetch size pages).map key) ↔
      ∀ place best, merged[place]? = some best →
        ∃ copy ∈ prefixes (fetch (place / size)) lists, key copy = key best ∧ cmp copy best = .eq := by
  have shown : ∀ index, index < pages * size →
      (firstPages key cmp lists fetch size pages)[index]? =
        (mergeBest key cmp (prefixes (fetch (index / size)) lists))[index]? :=
    fun index here => ranked.getElem?_firstPages whole reach le_rfl begun here
  have short : (firstPages key cmp lists fetch size pages).length ≤ pages * size :=
    length_firstPages_le pages
  have onPage : ∀ index, index < pages * size →
      index / size < pages ∧ index < (index / size + 1) * size ∧ index < fetch (index / size) := by
    intro index here
    have page : index / size < pages := (Nat.div_lt_iff_lt_mul positive).mpr here
    have inPage : index < (index / size + 1) * size := by
      rw [Nat.mul_comm]
      exact Nat.lt_mul_div_succ index positive
    exact ⟨page, inPage, lt_of_lt_of_le inPage (reach _ page)⟩
  constructor
  · rintro ⟨distinct, complete⟩
    have inside : (firstPages key cmp lists fetch size pages).map key ⊆ merged.map key := by
      intro k member
      obtain ⟨hit, there, rfl⟩ := List.mem_map.mp member
      obtain ⟨index, at_⟩ := List.mem_iff_getElem?.mp there
      have inRange := (List.getElem?_eq_some_iff.mp at_).1
      rw [shown index (by omega)] at at_
      obtain ⟨best, known, same⟩ := whole.complete hit
        (mem_of_prefixes ((ranked.isMerge_prefixes _).mem hit (List.mem_of_getElem? at_)))
      exact List.mem_map.mpr ⟨best, known, same⟩
    have covers : merged.map key ⊆ (firstPages key cmp lists fetch size pages).map key := by
      intro k member
      obtain ⟨best, known, rfl⟩ := List.mem_map.mp member
      exact complete best (whole.mem best known)
    have length : ((firstPages key cmp lists fetch size pages).map key).length =
        (merged.map key).length :=
      le_antisymm (List.subperm_of_subset distinct inside).length_le
        (List.subperm_of_subset whole.nodup covers).length_le
    have same : (firstPages key cmp lists fetch size pages).map key = merged.map key := by
      refine eq_of_not_before distinct inside length fun index k here => ?_
      rw [List.getElem?_map, Option.map_eq_some_iff] at here
      obtain ⟨hit, at_, rfl⟩ := here
      have inRange := (List.getElem?_eq_some_iff.mp at_).1
      rw [shown index (by omega)] at at_
      rw [← List.map_take]
      exact ranked.not_before_its_place whole at_ (onPage index (by omega)).2.2
    intro place best here
    have inRange := (List.getElem?_eq_some_iff.mp here).1
    have keys := congrArg (fun keys : List Key => keys[place]?) same
    simp only [List.getElem?_map] at keys
    rw [here, shown place (by omega), Option.map_some, Option.map_eq_some_iff] at keys
    obtain ⟨hit, at_, sameKey⟩ := keys
    refine ⟨hit, (ranked.isMerge_prefixes _).mem hit (List.mem_of_getElem? at_), sameKey, ?_⟩
    exact ranked.best_of_getElem? whole at_ (onPage place (by omega)).2.2
      (List.mem_of_getElem? here) sameKey.symm
  · intro visible
    -- each page is a part of the merge
    have same : (firstPages key cmp lists fetch size pages).map key = merged.map key := by
      apply List.ext_getElem?
      intro index
      rw [List.getElem?_map, List.getElem?_map]
      by_cases here : index < pages * size
      · obtain ⟨page, inPage, -⟩ := onPage index here
        rw [shown index here]
        have keys := map_eq_of_forall₂ <| (whole.take_of_visible ranked.ordered
          (ranked.isMerge_prefixes (fetch (index / size))) (fun hit => mem_of_prefixes)
          ((index / size + 1) * size) fun hit member => ?_).imp fun _ _ same => same.1
        · have atIndex := congrArg (fun keys : List Key => keys[index]?) keys
          simp only [List.getElem?_map, List.getElem?_take, inPage, if_true] at atIndex
          exact atIndex
        · obtain ⟨place, at_⟩ := List.mem_iff_getElem?.mp member
          rw [List.getElem?_take] at at_
          split at at_
          case isFalse => cases at_
          case isTrue sooner =>
          obtain ⟨copy, seen, both⟩ := visible place hit at_
          obtain ⟨list, listed, there⟩ := mem_prefixes.mp seen
          have earlier : place / size ≤ index / size :=
            Nat.le_of_lt_succ ((Nat.div_lt_iff_lt_mul positive).mpr sooner)
          refine ⟨copy, mem_prefixes.mpr ⟨list, listed, ?_⟩, both⟩
          exact List.take_subset_take_left list (longer _ page _ earlier) there
      · rw [List.getElem?_eq_none (by omega), List.getElem?_eq_none (by omega)]
    rw [same]
    refine ⟨whole.nodup, fun hit member => ?_⟩
    obtain ⟨best, known, sameKey⟩ := whole.complete hit member
    exact List.mem_map.mpr ⟨best, known, sameKey⟩

end RankedLists

end Pages

end ImposbroSearch.Foundation
