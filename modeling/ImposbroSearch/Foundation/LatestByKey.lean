import Mathlib.Data.List.Perm.Basic
import Mathlib.Data.List.Induction
import Mathlib.Data.List.Nodup
import Mathlib.Data.List.Pairwise
import Mathlib.Data.List.Sort
import Mathlib.Tactic.Common

/-!
# The latest item of each key, by a scan and by ranks

A scan keeps one item of each key and replaces it by a later one. A ranking keeps the
items that no item of their key is later than. Sorted by position, the two give the
same list when positions are distinct. Assignments to a dict keep the same items, when
those of one key come in the order of their ranks.
-/

namespace ImposbroSearch.Foundation

variable {α κ : Type*} [DecidableEq κ]

/-- The items in the order of their positions. -/
def byPosition (position : α → ℕ) (items : List α) : List α :=
  items.mergeSort fun first second => position first ≤ position second

/-- The item takes the place of an earlier one of its key. -/
def keepLatest (key : α → κ) (position : α → ℕ) (item : α) : List α → List α
  | [] => [item]
  | old :: latest =>
    if key old = key item then
      (if position old < position item then item else old) :: latest
    else old :: keepLatest key position item latest

/-- One item of each key, in the order of the first ones. -/
def latestScan (key : α → κ) (position : α → ℕ) (items : List α) : List α :=
  items.foldl (fun latest item => keepLatest key position item latest) []

/-- One more than the number of later items of the same key. -/
def keyRank (key : α → κ) (position : α → ℕ) (items : List α) (item : α) : ℕ :=
  (items.filter fun other => key other = key item ∧ position item < position other).length + 1

/-- The items of rank one. -/
def latestRanked (key : α → κ) (position : α → ℕ) (items : List α) : List α :=
  items.filter fun item => keyRank key position items item = 1

variable {key : α → κ} {position : α → ℕ} {items latest : List α} {item : α}

/-! ## Sorting by position -/

/-- A list in the order of its positions is sorted already. -/
theorem byPosition_of_pairwise (sorted : items.Pairwise fun first second =>
    position first < position second) : byPosition position items = items :=
  List.mergeSort_of_pairwise (sorted.imp fun lower => by simpa using lower.le)

theorem pairwise_byPosition (position : α → ℕ) (items : List α) :
    (byPosition position items).Pairwise fun first second => position first ≤ position second := by
  have sorted : (byPosition position items).Pairwise fun first second =>
      decide (position first ≤ position second) = true := by
    refine List.pairwise_mergeSort (fun first second third low high => ?_) (fun first second => ?_)
      items
    · simp only [decide_eq_true_eq] at low high ⊢
      exact low.trans high
    · simp only [Bool.or_eq_true, decide_eq_true_eq]
      exact Nat.le_total _ _
  exact sorted.imp fun lower => by simpa using lower

/-- Items with distinct positions sort in one way. -/
theorem byPosition_congr {other : List α} (perm : items.Perm other)
    (apart : ∀ first ∈ items, ∀ second ∈ items, position first = position second →
      first = second) : byPosition position items = byPosition position other := by
  refine List.Perm.eq_of_pairwise ?_ (pairwise_byPosition position items)
    (pairwise_byPosition position other)
    ((List.mergeSort_perm items _).trans (perm.trans (List.mergeSort_perm other _).symm))
  intro first second here there low high
  have member := (List.mergeSort_perm other _).mem_iff.mp there
  exact apart first ((List.mergeSort_perm items _).mem_iff.mp here) second
    (perm.mem_iff.mpr member) (le_antisymm low high)

/-! ## The scan -/

/-- An item later than those kept replaces the one of its key. -/
theorem mem_keepLatest (nodup : (latest.map key).Nodup)
    (later : ∀ old ∈ latest, position old < position item) {kept : α} :
    kept ∈ keepLatest key position item latest ↔
      kept = item ∨ (kept ∈ latest ∧ key kept ≠ key item) := by
  induction latest with
  | nil => simp [keepLatest]
  | cons old latest ih =>
      rw [List.map_cons, List.nodup_cons] at nodup
      unfold keepLatest
      split_ifs with same lower
      · have absent : ∀ other ∈ latest, key other ≠ key item := by
          intro other member equal
          exact nodup.1 (same ▸ equal ▸ List.mem_map_of_mem member)
        constructor
        · intro member
          rcases List.mem_cons.mp member with rfl | member
          · exact Or.inl rfl
          · exact Or.inr ⟨List.mem_cons_of_mem _ member, absent kept member⟩
        · rintro (rfl | ⟨member, differs⟩)
          · exact List.mem_cons_self
          · rcases List.mem_cons.mp member with rfl | member
            · exact absurd same differs
            · exact List.mem_cons_of_mem _ member
      · exact absurd (later old List.mem_cons_self) lower
      · have rest := ih nodup.2 fun other member => later other (List.mem_cons_of_mem _ member)
        rw [List.mem_cons, rest, List.mem_cons]
        constructor
        · rintro (rfl | rfl | ⟨member, differs⟩)
          · exact Or.inr ⟨Or.inl rfl, same⟩
          · exact Or.inl rfl
          · exact Or.inr ⟨Or.inr member, differs⟩
        · rintro (rfl | ⟨rfl | member, differs⟩)
          · exact Or.inr (Or.inl rfl)
          · exact Or.inl rfl
          · exact Or.inr (Or.inr ⟨member, differs⟩)

/-- Each key is kept once. -/
theorem nodup_keepLatest (nodup : (latest.map key).Nodup) (item : α) :
    ((keepLatest key position item latest).map key).Nodup ∧
      ∀ other ∈ (keepLatest key position item latest).map key,
        other ∈ latest.map key ∨ other = key item := by
  induction latest with
  | nil => simp [keepLatest]
  | cons old latest ih =>
      rw [List.map_cons, List.nodup_cons] at nodup
      unfold keepLatest
      split_ifs with same lower
      · rw [List.map_cons, List.nodup_cons, ← same]
        refine ⟨nodup, fun other member => Or.inl ?_⟩
        simpa using member
      · rw [List.map_cons, List.nodup_cons]
        exact ⟨nodup, fun other member => Or.inl member⟩
      · obtain ⟨unique, named⟩ := ih nodup.2
        rw [List.map_cons, List.nodup_cons]
        refine ⟨⟨fun member => ?_, unique⟩, fun other member => ?_⟩
        · rcases named _ member with before | equal
          · exact nodup.1 before
          · exact same equal
        · rcases List.mem_cons.mp member with rfl | member
          · exact Or.inl List.mem_cons_self
          · exact (named other member).imp (List.mem_cons_of_mem _) id

/-- **The scan** of items in the order of their positions keeps the last item of each
key, once. -/
theorem latestScan_spec (key : α → κ) (sorted : items.Pairwise fun first second =>
    position first < position second) :
    ((latestScan key position items).map key).Nodup ∧
      ∀ kept, kept ∈ latestScan key position items ↔ kept ∈ items ∧
        ∀ other ∈ items, key other = key kept → position other ≤ position kept := by
  induction items using List.reverseRecOn with
  | nil => simp [latestScan]
  | append_singleton items last ih =>
      obtain ⟨before, -, above⟩ := List.pairwise_append.mp sorted
      have above : ∀ old ∈ items, position old < position last :=
        fun old member => above old member last List.mem_cons_self
      obtain ⟨nodup, kept_iff⟩ := ih before
      have scan : latestScan key position (items ++ [last]) =
          keepLatest key position last (latestScan key position items) := by
        simp [latestScan]
      rw [scan]
      refine ⟨(nodup_keepLatest nodup last).1, fun kept => ?_⟩
      rw [mem_keepLatest nodup fun old member => above old ((kept_iff old).mp member).1, kept_iff]
      simp only [List.mem_append, List.mem_singleton]
      constructor
      · rintro (rfl | ⟨⟨member, largest⟩, differs⟩)
        · refine ⟨Or.inr rfl, fun other stored _ => ?_⟩
          rcases stored with stored | rfl
          · exact (above other stored).le
          · exact le_rfl
        · refine ⟨Or.inl member, fun other stored same => ?_⟩
          rcases stored with stored | rfl
          · exact largest other stored same
          · exact absurd same.symm differs
      · rintro ⟨member | rfl, largest⟩
        · refine Or.inr ⟨⟨member, fun other stored => largest other (Or.inl stored)⟩, ?_⟩
          intro same
          exact absurd (above kept member) (not_lt.mpr (largest last (Or.inr rfl) same.symm))
        · exact Or.inl rfl

/-- The scan keeps nothing but its items. -/
theorem mem_of_mem_keepLatest {kept : α} (member : kept ∈ keepLatest key position item latest) :
    kept = item ∨ kept ∈ latest := by
  induction latest with
  | nil => exact Or.inl (List.mem_singleton.mp member)
  | cons old latest ih =>
      unfold keepLatest at member
      split_ifs at member
      · rcases List.mem_cons.mp member with rfl | member
        · exact Or.inl rfl
        · exact Or.inr (List.mem_cons_of_mem _ member)
      · exact Or.inr member
      · rcases List.mem_cons.mp member with rfl | member
        · exact Or.inr List.mem_cons_self
        · exact (ih member).imp id (List.mem_cons_of_mem _)

theorem mem_of_mem_latestScan {kept : α} (member : kept ∈ latestScan key position items) :
    kept ∈ items := by
  induction items using List.reverseRecOn with
  | nil => cases member
  | append_singleton items last ih =>
      unfold latestScan at member
      rw [List.foldl_append] at member
      rcases mem_of_mem_keepLatest member with rfl | member
      · exact List.mem_append_right _ List.mem_cons_self
      · exact List.mem_append_left _ (ih member)

section Map

variable {γ : Type*} {f : α → γ} {keyOf : γ → κ} {positionOf : γ → ℕ}

theorem keepLatest_map (keys : ∀ old ∈ item :: latest, keyOf (f old) = key old)
    (positions : ∀ old ∈ item :: latest, positionOf (f old) = position old) :
    keepLatest keyOf positionOf (f item) (latest.map f) =
      (keepLatest key position item latest).map f := by
  induction latest with
  | nil => rfl
  | cons old latest ih =>
      have rest : ∀ {other}, other ∈ item :: latest → other ∈ item :: old :: latest := by
        intro other member
        rcases List.mem_cons.mp member with rfl | member
        · exact List.mem_cons_self
        · exact List.mem_cons_of_mem _ (List.mem_cons_of_mem _ member)
      have second : old ∈ item :: old :: latest := List.mem_cons_of_mem _ List.mem_cons_self
      rw [List.map_cons]
      unfold keepLatest
      rw [keys old second, keys item List.mem_cons_self, positions old second,
        positions item List.mem_cons_self]
      split_ifs
      · rfl
      · rfl
      · exact congrArg (f old :: ·) (ih (fun other member => keys other (rest member))
          fun other member => positions other (rest member))

/-- A scan of images is the image of the scan. -/
theorem latestScan_map (keys : ∀ old ∈ items, keyOf (f old) = key old)
    (positions : ∀ old ∈ items, positionOf (f old) = position old) :
    latestScan keyOf positionOf (items.map f) = (latestScan key position items).map f := by
  induction items using List.reverseRecOn with
  | nil => rfl
  | append_singleton items last ih =>
      have before := ih (fun old member => keys old (List.mem_append_left _ member))
        fun old member => positions old (List.mem_append_left _ member)
      have within : ∀ {old}, old ∈ last :: latestScan key position items →
          old ∈ items ++ [last] := by
        intro old member
        rcases List.mem_cons.mp member with rfl | member
        · exact List.mem_append_right _ List.mem_cons_self
        · exact List.mem_append_left _ (mem_of_mem_latestScan member)
      unfold latestScan at before ⊢
      rw [List.map_append, List.foldl_append, List.foldl_append, before]
      exact keepLatest_map (fun old member => keys old (within member))
        fun old member => positions old (within member)

theorem byPosition_map (positions : ∀ old ∈ items, positionOf (f old) = position old) :
    byPosition positionOf (items.map f) = (byPosition position items).map f := by
  unfold byPosition
  refine (List.map_mergeSort fun first here second there => ?_).symm
  rw [positions first here, positions second there]

end Map

/-! ## The ranking -/

theorem keyRank_eq_one {item : α} : keyRank key position items item = 1 ↔
    ∀ other ∈ items, key other = key item → position other ≤ position item := by
  unfold keyRank
  rw [Nat.add_eq_right, List.length_eq_zero_iff, List.filter_eq_nil_iff]
  simp only [decide_eq_true_eq, not_and, not_lt]

/-- **The scan and the ranking** give the same items in the same order. -/
theorem byPosition_latestScan (sorted : items.Pairwise fun first second =>
    position first < position second) :
    byPosition position (latestScan key position items) =
      byPosition position (latestRanked key position items) := by
  obtain ⟨nodup, kept_iff⟩ := latestScan_spec key sorted
  have distinct : items.Nodup := sorted.imp fun lower equal => by
    rw [equal] at lower
    exact lt_irrefl _ lower
  refine byPosition_congr ((List.perm_ext_iff_of_nodup (List.Nodup.of_map key nodup)
    (distinct.filter _)).mpr fun kept => ?_) ?_
  · rw [kept_iff, List.mem_filter, decide_eq_true_eq, keyRank_eq_one]
  · intro first here second there same
    by_contra differs
    have symm : Std.Symm fun first second : α => position first ≠ position second :=
      ⟨fun _ _ apart => apart.symm⟩
    have apart : items.Pairwise fun first second => position first ≠ position second :=
      sorted.imp fun lower => lower.ne
    exact apart.forall ((kept_iff first).mp here).1 ((kept_iff second).mp there).1 differs same

/-! ## Assignments to a dict -/

section Assignments

variable {rank : α → ℕ}

/-- An item that no item of its key outranks. -/
def IsLatest (key : α → κ) (rank : α → ℕ) (items : List α) (item : α) : Prop :=
  item ∈ items ∧ ∀ other ∈ items, key other = key item → rank other ≤ rank item

/-- `latest[key(item)] = item` -/
def assign (key : α → κ) (latest : List α) (item : α) : List α :=
  if latest.any fun old => key old = key item then
    latest.map fun old => if key old = key item then item else old
  else latest ++ [item]

omit [DecidableEq κ] in
/-- **One more item**, which outranks those of its key. -/
theorem isLatest_snoc (outranks : ∀ other ∈ items, key other = key item → rank other < rank item)
    {kept : α} : IsLatest key rank (items ++ [item]) kept ↔
      kept = item ∨ (IsLatest key rank items kept ∧ key kept ≠ key item) := by
  constructor
  · rintro ⟨member, highest⟩
    rcases List.mem_append.mp member with earlier | here
    · right
      refine ⟨⟨earlier, fun other there => highest other (List.mem_append_left _ there)⟩, ?_⟩
      intro same
      have low := outranks kept earlier same
      have high := highest item (List.mem_append_right _ List.mem_cons_self) same.symm
      omega
    · exact Or.inl (List.mem_singleton.mp here)
  · rintro (rfl | ⟨⟨earlier, highest⟩, differs⟩)
    · refine ⟨List.mem_append_right _ List.mem_cons_self, fun other there same => ?_⟩
      rcases List.mem_append.mp there with earlier | here
      · exact le_of_lt (outranks other earlier same)
      · rw [List.mem_singleton.mp here]
    · refine ⟨List.mem_append_left _ earlier, fun other there same => ?_⟩
      rcases List.mem_append.mp there with before | here
      · exact highest other before same
      · exact absurd (List.mem_singleton.mp here ▸ same.symm) differs

/-- An assignment replaces the item of its key. -/
theorem mem_assign {kept : α} :
    kept ∈ assign key latest item ↔ kept = item ∨ (kept ∈ latest ∧ key kept ≠ key item) := by
  unfold assign
  split_ifs with known
  · obtain ⟨old, listed, same⟩ := List.any_eq_true.mp known
    rw [decide_eq_true_eq] at same
    rw [List.mem_map]
    constructor
    · rintro ⟨source, there, rfl⟩
      split_ifs with replaced
      · exact Or.inl rfl
      · exact Or.inr ⟨there, replaced⟩
    · rintro (rfl | ⟨there, differs⟩)
      · exact ⟨old, listed, if_pos same⟩
      · exact ⟨kept, there, if_neg differs⟩
  · have absent : ∀ old ∈ latest, key old ≠ key item := by
      intro old listed same
      exact known (List.any_eq_true.mpr ⟨old, listed, decide_eq_true same⟩)
    rw [List.mem_append, List.mem_singleton, or_comm]
    constructor
    · rintro (rfl | there)
      · exact Or.inl rfl
      · exact Or.inr ⟨there, absent kept there⟩
    · rintro (rfl | ⟨there, -⟩)
      · exact Or.inl rfl
      · exact Or.inr there

theorem nodup_assign (nodup : (latest.map key).Nodup) (item : α) :
    ((assign key latest item).map key).Nodup := by
  unfold assign
  split_ifs with known
  · have same : (latest.map fun old => if key old = key item then item else old).map key =
        latest.map key := by
      rw [List.map_map]
      refine List.map_congr_left fun old _ => ?_
      simp only [Function.comp_apply]
      split_ifs with replaced
      · exact replaced.symm
      · rfl
    rw [same]
    exact nodup
  · rw [List.map_append]
    refine List.Nodup.append nodup (List.nodup_singleton _) fun other there here => ?_
    obtain ⟨old, listed, same⟩ := List.mem_map.mp there
    apply known
    refine List.any_eq_true.mpr ⟨old, listed, decide_eq_true ?_⟩
    rw [same, List.mem_singleton.mp here]

/-- **The dict after all assignments** holds the latest item of each key. -/
theorem mem_foldl_assign (ordered : items.Pairwise fun first second =>
    key first = key second → rank first < rank second) :
    (∀ kept, kept ∈ items.foldl (assign key) [] ↔ IsLatest key rank items kept) ∧
      ((items.foldl (assign key) []).map key).Nodup := by
  induction items using List.reverseRecOn with
  | nil => simp [IsLatest]
  | append_singleton items item ih =>
      obtain ⟨before, -, last⟩ := List.pairwise_append.mp ordered
      obtain ⟨members, nodup⟩ := ih before
      have outranks : ∀ other ∈ items, key other = key item → rank other < rank item :=
        fun other there => last other there item List.mem_cons_self
      rw [List.foldl_append]
      refine ⟨fun kept => ?_, nodup_assign nodup item⟩
      rw [isLatest_snoc outranks, ← members]
      exact mem_assign

end Assignments

end ImposbroSearch.Foundation
