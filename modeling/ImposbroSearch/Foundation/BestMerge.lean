import ImposbroSearch.Foundation.Ranking

/-!
# Merging ranked lists

Several ranked lists are merged: of each key the best hit is kept, and the hits that are
kept are sorted. The merge is determined by its input up to hits that tie, and hits with
different keys never tie.

When only prefixes of the lists are merged, the result begins like the merge of the whole
lists as far as the best hits are in the prefixes.
-/

namespace ImposbroSearch.Foundation

section Merge

variable {Hit Key : Type*} [DecidableEq Key] (key : Hit → Key) (cmp : Hit → Hit → Ordering)

/-- One more hit. A hit that is kept makes room for a better one of its key. -/
def keepBest (kept : List Hit) (hit : Hit) : List Hit :=
  if kept.any fun other => key other = key hit then
    kept.map fun other => if key other = key hit ∧ cmp hit other = .lt then hit else other
  else kept ++ [hit]

def mergeBest (hits : List Hit) : List Hit :=
  (hits.foldl (keepBest key cmp) []).insertionSort fun first second => cmp first second ≠ .gt

/-- The keys of the hits that stand before a hit. -/
def keysBefore (hits : List Hit) (hit : Hit) : List Key :=
  ((hits.filter fun other => cmp other hit = .lt).map key).dedup

/-- The comparison is a total order of these hits, in which only hits of one key tie. -/
structure OrderedOn (S : Hit → Prop) : Prop extends RanksOn cmp S where
  tie : ∀ {a b}, S a → S b → cmp a b = .eq → key a = key b

/-- The best hit of every key, in order. -/
structure IsMerge (hits merged : List Hit) : Prop where
  sorted : merged.Pairwise fun first second => cmp first second = .lt
  mem : ∀ hit ∈ merged, hit ∈ hits
  best : ∀ hit ∈ merged, ∀ other ∈ hits, key other = key hit → cmp hit other ≠ .gt
  complete : ∀ other ∈ hits, ∃ hit ∈ merged, key hit = key other
  nodup : (merged.map key).Nodup

variable {key cmp} {S : Hit → Prop} {a b c : Hit}

/-! ## The order -/

omit [DecidableEq Key]

theorem OrderedOn.mono {T : Hit → Prop} (ordered : OrderedOn key cmp S) (inside : ∀ h, T h → S h) :
    OrderedOn key cmp T where
  toRanksOn := ordered.toRanksOn.mono inside
  tie first second := ordered.tie (inside _ first) (inside _ second)

/-- Hits of a total order are sorted by insertion. -/
theorem OrderedOn.pairwise_insertionSort {hits : List Hit} (ordered : OrderedOn key cmp (· ∈ hits)) :
    (hits.insertionSort fun first second => cmp first second ≠ .gt).Pairwise
      fun first second => cmp first second ≠ .gt := by
  let le : {hit // hit ∈ hits} → {hit // hit ∈ hits} → Prop :=
    fun first second => cmp first.1 second.1 ≠ .gt
  have total : Std.Total le := by
    refine ⟨fun first second => ?_⟩
    have swapped := ordered.swap first.2 second.2
    show cmp first.1 second.1 ≠ .gt ∨ cmp second.1 first.1 ≠ .gt
    rw [swapped]
    cases cmp first.1 second.1 with
    | _ => decide
  have trans : IsTrans {hit // hit ∈ hits} le :=
    ⟨fun first second third => ordered.trans first.2 second.2 third.2⟩
  have same : hits.insertionSort (fun first second => cmp first second ≠ .gt) =
      (hits.attach.insertionSort le).map Subtype.val := by
    rw [List.map_insertionSort le (fun first second => cmp first second ≠ .gt) Subtype.val
      hits.attach fun _ _ _ _ => Iff.rfl, List.attach_map_subtype_val]
  rw [same, List.pairwise_map]
  exact List.pairwise_insertionSort le hits.attach

/-! ## The merge of all hits -/

variable [DecidableEq Key]

/-- What the fold keeps, in any order. -/
structure KeepsBest (key : Hit → Key) (cmp : Hit → Hit → Ordering) (hits kept : List Hit) :
    Prop where
  mem : ∀ hit ∈ kept, hit ∈ hits
  best : ∀ hit ∈ kept, ∀ other ∈ hits, key other = key hit → cmp hit other ≠ .gt
  complete : ∀ other ∈ hits, ∃ hit ∈ kept, key hit = key other
  nodup : (kept.map key).Nodup

theorem KeepsBest.keepBest {hits kept : List Hit} {hit : Hit} (keeps : KeepsBest key cmp hits kept)
    (ordered : OrderedOn key cmp (· ∈ hits ++ [hit])) :
    KeepsBest key cmp (hits ++ [hit]) (keepBest key cmp kept hit) := by
  have here : hit ∈ hits ++ [hit] := List.mem_append_right _ (List.mem_singleton_self hit)
  have old : ∀ other ∈ hits, other ∈ hits ++ [hit] := fun _ => List.mem_append_left _
  unfold Foundation.keepBest
  split_ifs with known
  · -- the key is kept already, with the better of two hits
    have each : ∀ other ∈ kept, key (if key other = key hit ∧ cmp hit other = .lt then hit
        else other) = key other := by
      intro other _
      split_ifs with better
      · exact better.1.symm
      · rfl
    constructor
    case mem =>
      intro new member
      obtain ⟨other, listed, rfl⟩ := List.mem_map.mp member
      split_ifs
      · exact here
      · exact old _ (keeps.mem other listed)
    case best =>
      intro new member other listed same
      obtain ⟨before, there, rfl⟩ := List.mem_map.mp member
      rw [each before there] at same
      have beforeHere := old _ (keeps.mem before there)
      have against : ∀ other ∈ hits, key other = key before → cmp before other ≠ .gt :=
        keeps.best before there
      split_ifs with better
      · rcases List.mem_append.mp listed with earlier | single
        · rw [ordered.lt_of_lt_of_le here beforeHere (old _ earlier) better.2
            (against other earlier same)]
          decide
        · rw [List.mem_singleton.mp single, ordered.self here]
          decide
      · rcases List.mem_append.mp listed with earlier | single
        · exact against other earlier same
        · obtain rfl := List.mem_singleton.mp single
          rw [ordered.not_gt_iff beforeHere here]
          exact fun lt => better ⟨same.symm, lt⟩
    case complete =>
      intro other listed
      rcases List.mem_append.mp listed with earlier | single
      · obtain ⟨before, there, same⟩ := keeps.complete other earlier
        exact ⟨_, List.mem_map_of_mem there, (each before there).trans same⟩
      · obtain ⟨before, there, same⟩ := List.any_eq_true.mp known
        rw [List.mem_singleton.mp single]
        exact ⟨_, List.mem_map_of_mem there, (each before there).trans (of_decide_eq_true same)⟩
    case nodup =>
      rw [List.map_map, List.map_congr_left (f := key ∘ _) (g := key) each]
      exact keeps.nodup
  · -- the key is new
    have new : ∀ other ∈ kept, key other ≠ key hit := fun other listed same =>
      known (List.any_eq_true.mpr ⟨other, listed, decide_eq_true same⟩)
    constructor
    case mem =>
      intro other member
      rcases List.mem_append.mp member with earlier | single
      · exact old _ (keeps.mem other earlier)
      · rw [List.mem_singleton.mp single]
        exact here
    case best =>
      intro first member other listed same
      rcases List.mem_append.mp member with earlier | single
      · rcases List.mem_append.mp listed with before | last
        · exact keeps.best first earlier other before same
        · rw [List.mem_singleton.mp last] at same
          exact absurd same.symm (new first earlier)
      · rw [List.mem_singleton.mp single] at same ⊢
        rcases List.mem_append.mp listed with before | last
        · obtain ⟨known, there, equal⟩ := keeps.complete other before
          exact absurd (equal.trans same) (new known there)
        · rw [List.mem_singleton.mp last, ordered.self here]
          decide
    case complete =>
      intro other listed
      rcases List.mem_append.mp listed with earlier | single
      · obtain ⟨before, there, same⟩ := keeps.complete other earlier
        exact ⟨before, List.mem_append_left _ there, same⟩
      · rw [List.mem_singleton.mp single]
        exact ⟨hit, List.mem_append_right _ (List.mem_singleton_self hit), rfl⟩
    case nodup =>
      rw [List.map_append, List.nodup_append]
      refine ⟨keeps.nodup, List.nodup_singleton _, ?_⟩
      intro first member second single same
      obtain ⟨other, listed, rfl⟩ := List.mem_map.mp member
      rw [List.map_singleton, List.mem_singleton] at single
      exact new other listed (same.trans single)

theorem keepsBest_foldl {hits : List Hit} (ordered : OrderedOn key cmp (· ∈ hits)) :
    KeepsBest key cmp hits (hits.foldl (keepBest key cmp) []) := by
  induction hits using List.reverseRecOn with
  | nil =>
      exact ⟨fun _ none => (nomatch none), fun _ none => (nomatch none),
        fun _ none => (nomatch none), List.nodup_nil⟩
  | append_singleton hits hit ih =>
      rw [List.foldl_append]
      exact (ih (ordered.mono fun _ => List.mem_append_left _)).keepBest ordered

/-- **The merge** has the best hit of every key, in order. -/
theorem isMerge_mergeBest {hits : List Hit} (ordered : OrderedOn key cmp (· ∈ hits)) :
    IsMerge key cmp hits (mergeBest key cmp hits) := by
  have keeps := keepsBest_foldl ordered
  let kept := hits.foldl (keepBest key cmp) []
  have keptOrdered : OrderedOn key cmp (· ∈ kept) := ordered.mono keeps.mem
  have perm : (mergeBest key cmp hits).Perm kept := List.perm_insertionSort _ _
  have nodup : ((mergeBest key cmp hits).map key).Nodup := (perm.map key).nodup_iff.mpr keeps.nodup
  have inside : ∀ hit ∈ mergeBest key cmp hits, hit ∈ hits :=
    fun hit member => keeps.mem hit (perm.mem_iff.mp member)
  refine ⟨?_, inside, fun hit member => keeps.best hit (perm.mem_iff.mp member), ?_, nodup⟩
  · -- sorted, and without ties since the keys differ
    have sorted : (mergeBest key cmp hits).Pairwise fun first second => cmp first second ≠ .gt :=
      keptOrdered.pairwise_insertionSort
    have distinct : (mergeBest key cmp hits).Pairwise fun first second => key first ≠ key second :=
      List.pairwise_map.mp nodup
    refine (sorted.and distinct).imp_of_mem fun {first second} left right both => ?_
    cases same : cmp first second with
    | lt => rfl
    | gt => exact absurd same both.1
    | eq => exact absurd (ordered.tie (inside _ left) (inside _ right) same) both.2
  · intro other listed
    obtain ⟨hit, there, same⟩ := keeps.complete other listed
    exact ⟨hit, perm.mem_iff.mpr there, same⟩

/-! ## Positions -/

namespace IsMerge

omit [DecidableEq Key]

variable {hits merged seen part : List Hit} {hit : Hit}

/-- Hits with keys of their own are no more than the merge has. -/
theorem length_le (isMerge : IsMerge key cmp hits merged) {others : List Hit}
    (inside : ∀ other ∈ others, other ∈ hits) (distinct : (others.map key).Nodup) :
    others.length ≤ merged.length := by
  have subset : others.map key ⊆ merged.map key := by
    intro k member
    obtain ⟨other, listed, rfl⟩ := List.mem_map.mp member
    obtain ⟨found, there, same⟩ := isMerge.complete other (inside other listed)
    exact List.mem_map.mpr ⟨found, there, same⟩
  simpa using (List.subperm_of_subset distinct subset).length_le

/-- A merge of some hits has no more than these. -/
theorem length_le_hits [DecidableEq Hit] (isMerge : IsMerge key cmp hits merged) :
    merged.length ≤ hits.length :=
  (List.subperm_of_subset isMerge.nodup.of_map isMerge.mem).length_le

/-- A hit before another one stands before it. -/
theorem index_lt (isMerge : IsMerge key cmp hits merged) (ordered : OrderedOn key cmp (· ∈ hits))
    {position index : ℕ} {first second : Hit} (there : merged[position]? = some first)
    (here : merged[index]? = some second) (before : cmp first second = .lt) : position < index := by
  obtain ⟨inRange', rfl⟩ := List.getElem?_eq_some_iff.mp there
  obtain ⟨inRange, rfl⟩ := List.getElem?_eq_some_iff.mp here
  have firstHere := isMerge.mem _ (List.getElem_mem inRange')
  have secondHere := isMerge.mem _ (List.getElem_mem inRange)
  by_contra late
  rcases Nat.eq_or_lt_of_le (Nat.le_of_not_lt late) with rfl | later
  · rw [ordered.self secondHere] at before
    cases before
  · have sorted := List.pairwise_iff_getElem.mp isMerge.sorted index position inRange inRange' later
    rw [ordered.swap secondHere firstHere, sorted] at before
    cases before

/-- **The place of a hit** in the merge is the number of keys before it. -/
theorem length_keysBefore [DecidableEq Key] (isMerge : IsMerge key cmp hits merged)
    (ordered : OrderedOn key cmp (· ∈ hits)) {index : ℕ} (here : merged[index]? = some hit) :
    (keysBefore key cmp hits hit).length = index := by
  have inRange := (List.getElem?_eq_some_iff.mp here).1
  have hitHere := isMerge.mem hit (List.mem_of_getElem? here)
  have same : (keysBefore key cmp hits hit).Perm ((merged.take index).map key) := by
    have distinct : ((merged.take index).map key).Nodup := by
      rw [List.map_take]
      exact (List.take_sublist _ _).nodup isMerge.nodup
    unfold keysBefore
    rw [List.perm_ext_iff_of_nodup (List.nodup_dedup _) distinct]
    intro k
    rw [List.mem_dedup, List.mem_map, List.mem_map]
    constructor
    · rintro ⟨other, listed, rfl⟩
      obtain ⟨otherHere, before⟩ := List.mem_filter.mp listed
      obtain ⟨found, there, same⟩ := isMerge.complete other otherHere
      -- the best hit of that key is before the hit too
      have leads := ordered.lt_of_le_of_lt (isMerge.mem found there) otherHere hitHere
        (isMerge.best found there other otherHere same.symm) (of_decide_eq_true before)
      obtain ⟨position, at_⟩ := List.mem_iff_getElem?.mp there
      refine ⟨found, List.mem_iff_getElem?.mpr ⟨position, ?_⟩, same⟩
      rw [List.getElem?_take, if_pos (isMerge.index_lt ordered at_ here leads)]
      exact at_
    · rintro ⟨found, there, rfl⟩
      obtain ⟨position, at_⟩ := List.mem_iff_getElem?.mp there
      rw [List.getElem?_take] at at_
      split at at_
      case isFalse => cases at_
      case isTrue sooner =>
      obtain ⟨inRange', rfl⟩ := List.getElem?_eq_some_iff.mp at_
      obtain ⟨_, rfl⟩ := List.getElem?_eq_some_iff.mp here
      have sorted := List.pairwise_iff_getElem.mp isMerge.sorted position index inRange' inRange sooner
      exact ⟨_, List.mem_filter.mpr ⟨isMerge.mem _ (List.getElem_mem inRange'), decide_eq_true sorted⟩,
        rfl⟩
  rw [same.length_eq, List.length_map, List.length_take]
  omega

/-- **Merges of the same hits** in any order have the same keys in one order. -/
theorem map_key_eq [DecidableEq Key] {others merged' : List Hit}
    (isMerge : IsMerge key cmp hits merged) (isMerge' : IsMerge key cmp others merged')
    (ordered : OrderedOn key cmp (· ∈ hits)) (same : others.Perm hits) :
    merged'.map key = merged.map key := by
  have ordered' : OrderedOn key cmp (· ∈ others) := ordered.mono fun _ => same.mem_iff.mp
  have placed : ∀ (index : ℕ) hit, merged[index]? = some hit → ∃ found, merged'[index]? = some found ∧
      key found = key hit := by
    intro index hit here
    have there := isMerge.mem hit (List.mem_of_getElem? here)
    obtain ⟨found, listed, named⟩ := isMerge'.complete hit (same.mem_iff.mpr there)
    have found' := same.mem_iff.mp (isMerge'.mem found listed)
    -- two best hits of a key tie, so the same hits are before them
    have tie : cmp found hit = .eq := ordered.eq_of_le_of_le found' there
      (isMerge'.best found listed hit (same.mem_iff.mpr there) named.symm)
      (isMerge.best hit (List.mem_of_getElem? here) found found' named)
    obtain ⟨position, at_⟩ := List.mem_iff_getElem?.mp listed
    have before : (keysBefore key cmp others found).Perm (keysBefore key cmp hits hit) := by
      unfold keysBefore
      refine List.Perm.dedup (List.Perm.map key ?_)
      refine (same.filter _).trans (List.Perm.of_eq (List.filter_congr fun other member => ?_))
      exact decide_eq_decide.mpr (ordered.lt_iff_of_eq found' there member tie)
    have index_eq := before.length_eq
    rw [isMerge'.length_keysBefore ordered' at_, isMerge.length_keysBefore ordered here] at index_eq
    exact ⟨found, index_eq ▸ at_, named⟩
  have length : merged'.length = merged.length := by
    refine le_antisymm (isMerge.length_le (fun other listed =>
      same.mem_iff.mp (isMerge'.mem other listed)) isMerge'.nodup) ?_
    exact isMerge'.length_le (fun other listed => same.mem_iff.mpr (isMerge.mem other listed))
      isMerge.nodup
  ext1 index
  rw [List.getElem?_map, List.getElem?_map]
  cases here : merged[index]? with
  | none =>
      rw [List.getElem?_eq_none_iff.mpr (length ▸ List.getElem?_eq_none_iff.mp here)]
  | some hit =>
      obtain ⟨found, there, named⟩ := placed index hit here
      rw [there, Option.map_some, Option.map_some, named]

/-- **Hits before a hit** of the merge, with keys of their own, stand before it. -/
theorem length_le_of_before [DecidableEq Key] (isMerge : IsMerge key cmp hits merged)
    (ordered : OrderedOn key cmp (· ∈ hits)) {index : ℕ} (here : merged[index]? = some hit)
    (others : List Hit) (inside : ∀ other ∈ others, other ∈ hits)
    (distinct : (others.map key).Nodup) (before : ∀ other ∈ others, cmp other hit = .lt) :
    others.length ≤ index := by
  have subset : others.map key ⊆ keysBefore key cmp hits hit := by
    intro k member
    obtain ⟨other, listed, rfl⟩ := List.mem_map.mp member
    refine List.mem_dedup.mpr (List.mem_map.mpr ⟨other, List.mem_filter.mpr ⟨inside other listed, ?_⟩, rfl⟩)
    exact decide_eq_true (before other listed)
  have short := (List.subperm_of_subset distinct subset).length_le
  rw [List.length_map, isMerge.length_keysBefore ordered here] at short
  exact short

/-- The merge without its first hit is that of the hits with other keys. -/
theorem tail [DecidableEq Key] (isMerge : IsMerge key cmp hits (hit :: merged)) :
    IsMerge key cmp (hits.filter fun other => key other ≠ key hit) merged := by
  have nodup := isMerge.nodup
  rw [List.map_cons, List.nodup_cons] at nodup
  have other : ∀ found ∈ merged, key found ≠ key hit := fun found there same =>
    nodup.1 (List.mem_map.mpr ⟨found, there, same⟩)
  constructor
  case sorted => exact (List.pairwise_cons.mp isMerge.sorted).2
  case mem =>
    intro found there
    refine List.mem_filter.mpr ⟨isMerge.mem found (List.mem_cons_of_mem _ there), ?_⟩
    exact decide_eq_true (other found there)
  case best =>
    intro found there rival listed
    exact isMerge.best found (List.mem_cons_of_mem _ there) rival (List.mem_of_mem_filter listed)
  case complete =>
    intro rival listed
    obtain ⟨member, differs⟩ := List.mem_filter.mp listed
    obtain ⟨found, there, same⟩ := isMerge.complete rival member
    rcases List.mem_cons.mp there with rfl | later
    · exact absurd same.symm (of_decide_eq_true differs)
    · exact ⟨found, later, same⟩
  case nodup => exact nodup.2

/-- **A partial merge** begins like the whole one, as far as the best hits are seen. -/
theorem take_of_visible [DecidableEq Key] (ordered : OrderedOn key cmp (· ∈ hits))
    (whole : IsMerge key cmp hits merged) (partial_ : IsMerge key cmp seen part)
    (inside : ∀ hit ∈ seen, hit ∈ hits) (count : ℕ)
    (visible : ∀ hit ∈ merged.take count, ∃ copy ∈ seen, key copy = key hit ∧ cmp copy hit = .eq) :
    List.Forall₂ (fun first second => key first = key second ∧ cmp first second = .eq)
      (part.take count) (merged.take count) := by
  induction merged generalizing hits seen part count with
  | nil =>
      cases part with
      | nil => rw [List.take_nil]; exact .nil
      | cons hit rest =>
          obtain ⟨found, there, -⟩ := whole.complete hit
            (inside hit (partial_.mem hit List.mem_cons_self))
          cases there
  | cons first merged ih =>
      cases count with
      | zero => exact .nil
      | succ count =>
          obtain ⟨copy, copied, sameKey, tie⟩ := visible first List.mem_cons_self
          have firstHere := whole.mem first List.mem_cons_self
          -- the copy that is kept ties with the best one
          obtain ⟨kept, listed, keptKey⟩ := partial_.complete copy copied
          have keptHere := inside kept (partial_.mem kept listed)
          have keptTie : cmp kept first = .eq := by
            refine ordered.eq_of_le_of_le keptHere firstHere ?_
              (whole.best first List.mem_cons_self kept keptHere (keptKey.trans sameKey))
            refine ordered.trans keptHere (inside copy copied) firstHere
              (partial_.best kept listed copy copied keptKey.symm) ?_
            rw [tie]
            decide
          cases part with
          | nil => cases listed
          | cons head rest =>
              have headHere := inside head (partial_.mem head List.mem_cons_self)
              have headKey : key head = key first := by
                by_contra differs
                obtain ⟨best, there, same⟩ := whole.complete head headHere
                have later : best ∈ merged := by
                  rcases List.mem_cons.mp there with rfl | later
                  · exact absurd same.symm differs
                  · exact later
                have above : cmp first head = .lt :=
                  ordered.lt_of_lt_of_le firstHere (whole.mem best there) headHere
                    ((List.pairwise_cons.mp whole.sorted).1 best later)
                    (whole.best best there head headHere same.symm)
                rcases List.mem_cons.mp listed with rfl | behind
                · exact differs (keptKey.trans sameKey)
                · have below := (List.pairwise_cons.mp partial_.sorted).1 kept behind
                  have closed := ordered.lt_of_lt_of_le firstHere headHere keptHere above
                    (by rw [below]; decide)
                  rw [ordered.swap keptHere firstHere, keptTie] at closed
                  cases closed
              have same : head = kept := by
                have nodup := partial_.nodup
                exact List.inj_on_of_nodup_map nodup List.mem_cons_self listed
                  (headKey.trans (keptKey.trans sameKey).symm)
              refine .cons ⟨headKey, same ▸ keptTie⟩ ?_
              have restMerge := partial_.tail
              rw [headKey] at restMerge
              refine ih (ordered.mono fun _ member => List.mem_of_mem_filter member) whole.tail
                restMerge (fun hit member => ?_) count fun hit member => ?_
              · obtain ⟨listed, differs⟩ := List.mem_filter.mp member
                exact List.mem_filter.mpr ⟨inside hit listed, differs⟩
              · obtain ⟨copy, copied, sameKey, tie⟩ := visible hit
                  (List.mem_cons_of_mem _ member)
                refine ⟨copy, List.mem_filter.mpr ⟨copied, decide_eq_true ?_⟩, sameKey, tie⟩
                have nodup := whole.nodup
                rw [List.map_cons, List.nodup_cons] at nodup
                rw [sameKey]
                exact fun equal => nodup.1
                  (List.mem_map.mpr ⟨hit, List.mem_of_mem_take member, equal⟩)

end IsMerge

end Merge

end ImposbroSearch.Foundation
