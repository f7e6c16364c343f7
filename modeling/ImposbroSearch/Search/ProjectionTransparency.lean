import Mathlib.Data.Fintype.EquivFin
import ImposbroSearch.Search.Projection

/-!
# Transparency of the projection

The forwarded projection shows at a path what the fields of the search show there, and what
the added merge keys show, less the merge keys that are excluded. So a merge key is lost
exactly when an excluded path that is forwarded overlaps it, and the narrowed document is the
one asked for exactly when no added merge key takes away a part that was asked for and none
leaves an object behind that was not.
-/

namespace ImposbroSearch.Search

open ImposbroSearch.Foundation

variable {F : Type} {included excluded added : List (List Text)} {document : Json F}

/-! ## Overlapping paths -/

/-- One path is on the way to the other. -/
def Overlap (path other : List Text) : Prop := path <+: other ∨ other <+: path

/-- The deeper of two paths. -/
theorem Overlap.deeper {path other : List Text} (overlap : Overlap path other) :
    ∃ deep, path <+: deep ∧ other <+: deep ∧ (deep = path ∨ deep = other) := by
  rcases overlap with below | above
  · exact ⟨other, below, List.prefix_refl other, Or.inr rfl⟩
  · exact ⟨path, List.prefix_refl path, above, Or.inl rfl⟩

/-- What is kept for the sake of some paths. -/
def KeptFor (paths : List (List Text)) (document : Json F) (path : List Text) : Prop :=
  ∃ wanted ∈ paths, wanted <+: path ∨ path <+: wanted ∧ (document.valueAt wanted).isSome

theorem includeKeeps_iff {fields : List Text} {path : List Text} :
    includeKeeps fields document path = true ↔ KeptFor (fields.map pathParts) document path := by
  unfold includeKeeps KeptFor getDocumentValue
  simp

theorem keptFor_append {paths others : List (List Text)} {path : List Text} :
    KeptFor (paths ++ others) document path ↔
      KeptFor paths document path ∨ KeptFor others document path := by
  unfold KeptFor
  simp only [List.mem_append, or_and_right, exists_or]

/-! ## Added merge keys -/

/-- The paths that are added to the included ones and taken away again leave nothing
behind: where one overlaps an included path it is excluded anyway, and the object around
one is there anyway, or is taken away too. -/
structure AddedApart (included excluded added : List (List Text)) : Prop where
  covered : ∀ key ∈ added, ∀ path ∈ included, Overlap path key → ∃ out ∈ excluded, out <+: key
  noParent : ∀ key ∈ added, 2 ≤ key.length → (∃ path ∈ included, path <+: key) ∨
    ∃ top ∈ excluded ++ added, top.length = 1 ∧ top <+: key

/-- A path of the public document. -/
def Shown (included excluded added : List (List Text)) (document : Json F) (path : List Text) :
    Prop :=
  KeptFor (included ++ added) document path ∧ path ∉ excluded ++ added

/-- A path of the document that was asked for. -/
def Wanted (included excluded : List (List Text)) (document : Json F) (path : List Text) : Prop :=
  KeptFor included document path ∧ path ∉ excluded

/-- It holds of a path and of all above it. -/
def OnTheWay (keep : List Text → Prop) (path : List Text) : Prop :=
  ∀ above, above ≠ [] → above <+: path → keep above

/-- **The same is shown as was wanted** when the added merge keys stand apart. -/
theorem AddedApart.onTheWay_iff (apart : AddedApart included excluded added)
    (solid : ∀ path ∈ excluded ++ added, path ≠ []) {path : List Text} :
    OnTheWay (Shown included excluded added document) path ↔
      OnTheWay (Wanted included excluded document) path := by
  constructor
  · intro shown above some_ onTheWay
    obtain ⟨kept, hidden⟩ := shown above some_ onTheWay
    obtain ⟨notExcluded, notAdded⟩ := not_or.mp (mt List.mem_append.mpr hidden)
    refine ⟨?_, notExcluded⟩
    rcases keptFor_append.mp kept with kept | ⟨key, member, below | ⟨here, present⟩⟩
    · exact kept
    · -- a merge key above a part that is shown would have been taken away
      have gone := (shown key (solid key (List.mem_append_right _ member)) (below.trans onTheWay)).2
      exact absurd (List.mem_append_right _ member) gone
    · -- the object around a merge key
      have nested : 2 ≤ key.length := by
        by_contra short
        obtain ⟨rest, joined⟩ := here
        have length := congrArg List.length joined
        rw [List.length_append] at length
        have some' := List.length_pos_iff.mpr some_
        have none_ : rest = [] := List.eq_nil_of_length_eq_zero (by omega)
        rw [none_, List.append_nil] at joined
        exact notAdded (joined ▸ member)
      rcases apart.noParent key member nested with ⟨wanted, inside, aboveKey⟩ | ⟨top, out, one, aboveKey⟩
      · exact ⟨wanted, inside, (List.prefix_or_prefix_of_prefix aboveKey here).imp_right fun deeper =>
          ⟨deeper, Json.valueAt_isSome_of_prefix aboveKey present⟩⟩
      · have first : top <+: above := by
          refine List.prefix_of_prefix_length_le aboveKey here ?_
          rw [one]
          exact List.length_pos_iff.mpr some_
        have top_ : top ≠ [] := fun empty => by rw [empty] at one; cases one
        exact absurd out (shown top top_ (first.trans onTheWay)).2
  · intro wanted above some_ onTheWay
    obtain ⟨kept, notExcluded⟩ := wanted above some_ onTheWay
    refine ⟨keptFor_append.mpr (Or.inl kept), ?_⟩
    intro out
    rcases List.mem_append.mp out with out | key
    · exact notExcluded out
    · -- an added key that was asked for is below an excluded path
      obtain ⟨inside, member, overlap⟩ := kept
      have overlaps : Overlap inside above := overlap.imp_right And.left
      obtain ⟨out, excludedHere, aboveKey⟩ := apart.covered above key inside member overlaps
      have out_ := solid out (List.mem_append_left _ excludedHere)
      exact (wanted out out_ (aboveKey.trans onTheWay)).2 excludedHere

/-- Otherwise there is a document that tells the difference. -/
theorem AddedApart.of_onTheWay_iff (solid : ∀ path ∈ included ++ added, path ≠ [])
    (same : ∀ (document : Json F) (path : List Text), document.Unique → path ≠ [] →
      (document.valueAt path).isSome →
        (OnTheWay (Shown included excluded added document) path ↔
          OnTheWay (Wanted included excluded document) path)) :
    AddedApart included excluded added where
  covered key member path inside overlap := by
    by_contra uncovered
    obtain ⟨deep, pathHere, keyHere, -⟩ := overlap.deeper
    have agree := same (Json.ofPath deep : Json F) key (Json.ofPath_unique deep)
      (solid key (List.mem_append_right _ member)) ((Json.valueAt_ofPath deep key).mpr keyHere)
    refine (agree.mpr ?_ key (solid key (List.mem_append_right _ member)) (List.prefix_refl key)).2
      (List.mem_append_right _ member)
    intro above some_ onTheWay
    refine ⟨⟨path, inside, ?_⟩, fun out => uncovered ⟨above, out, onTheWay⟩⟩
    exact (List.prefix_or_prefix_of_prefix pathHere (onTheWay.trans keyHere)).imp_right fun higher =>
      ⟨higher, (Json.valueAt_ofPath deep path).mpr pathHere⟩
  noParent key member nested := by
    by_contra neither
    obtain ⟨noneAbove, noTop⟩ := not_or.mp neither
    obtain ⟨top, topHere, one⟩ : ∃ top, top <+: key ∧ top.length = 1 :=
      ⟨key.take 1, List.take_prefix 1 key, by rw [List.length_take]; omega⟩
    have top_ : top ≠ [] := fun empty => by rw [empty] at one; cases one
    have agree := same (Json.ofPath key : Json F) top (Json.ofPath_unique key) top_
      ((Json.valueAt_ofPath key top).mpr topHere)
    have shown : OnTheWay (Shown included excluded added (Json.ofPath key : Json F)) top := by
      intro above some_ onTheWay
      refine ⟨keptFor_append.mpr (Or.inr ⟨key, member, Or.inr ⟨onTheWay.trans topHere, ?_⟩⟩),
        fun out => noTop ⟨above, out, ?_, onTheWay.trans topHere⟩⟩
      · exact (Json.valueAt_ofPath key key).mpr (List.prefix_refl key)
      · have short := onTheWay.length_le
        have some' := List.length_pos_iff.mpr some_
        omega
    obtain ⟨⟨path, inside, below | ⟨-, present⟩⟩, -⟩ :=
      agree.mp shown top top_ (List.prefix_refl top)
    · exact noneAbove ⟨path, inside, below.trans topHere⟩
    · exact noneAbove ⟨path, inside, (Json.valueAt_ofPath key path).mp present⟩

/-! ## The plan -/

theorem projectDocument_eq_prune (included excluded : List Text) (document : Json F) :
    projectDocument included excluded document = document.prune fun path =>
      (includesAll included || includeKeeps included document path) &&
        decide (path ∉ excluded.map pathParts) := by
  unfold projectDocument
  by_cases all : includesAll included = true
  · simp only [all, if_true, Bool.true_or, Bool.true_and]
  · rw [if_neg all, Json.prune_prune]
    simp only [all, Bool.false_or]

theorem hideInternalProjectionFields_eq_prune (internalOnly : List Text) (document : Json F) :
    hideInternalProjectionFields internalOnly document =
      document.prune (· ∉ internalOnly.map pathParts) := by
  unfold hideInternalProjectionFields
  rw [← List.foldl_map (f := pathParts) (g := Json.removePath), Json.foldl_removePath]
  intro empty
  obtain ⟨field, -, none_⟩ := List.mem_map.mp empty
  exact pathParts_ne_nil field none_

/-- The merge keys that are forwarded though they were not asked for. -/
def addedFields (included : List Text) (sortFields : List SortField) : List Text :=
  (requiredFields sortFields).filter fun field => ¬includesAll included ∧ field ∉ included

variable {includeFields excludeFields : Option Text} {sortFields : List SortField}

theorem publicDocument_eq_prune (document : Json F) :
    (projectionPlan includeFields excludeFields sortFields).publicDocument document =
      document.prune fun path =>
        (includesAll (projectionPlan includeFields excludeFields sortFields).forwardedInclude ||
          includeKeeps (projectionPlan includeFields excludeFields sortFields).forwardedInclude
            document path) &&
          decide (path ∉ (splitTopLevelCsv excludeFields ++
            addedFields (splitTopLevelCsv includeFields) sortFields).map pathParts) := by
  unfold ProjectionPlan.publicDocument ProjectionPlan.shardDocument
  rw [hideInternalProjectionFields_eq_prune, projectDocument_eq_prune, Json.prune_prune]
  congr 1
  funext path
  rw [Bool.and_assoc]
  congr 1
  rw [Bool.eq_iff_iff, Bool.and_eq_true, decide_eq_true_iff, decide_eq_true_iff, decide_eq_true_iff,
    ← not_or, not_iff_not]
  unfold projectionPlan addedFields
  simp only [List.mem_map, List.mem_append, List.mem_filter, decide_eq_true_eq]
  constructor
  · rintro (⟨field, ⟨listed, -⟩, rfl⟩ | ⟨field, ⟨needed, added | listed⟩, rfl⟩)
    · exact ⟨field, Or.inl listed, rfl⟩
    · exact ⟨field, Or.inr ⟨needed, added⟩, rfl⟩
    · exact ⟨field, Or.inl listed, rfl⟩
  · rintro ⟨field, listed | ⟨needed, added⟩, rfl⟩
    · by_cases needed : field ∈ requiredFields sortFields
      · exact Or.inr ⟨field, ⟨needed, Or.inr listed⟩, rfl⟩
      · exact Or.inl ⟨field, ⟨listed, needed⟩, rfl⟩
    · exact Or.inr ⟨field, ⟨needed, Or.inl added⟩, rfl⟩

theorem mem_forwardedInclude {field : Text} (some_ : splitTopLevelCsv includeFields ≠ []) :
    field ∈ (projectionPlan includeFields excludeFields sortFields).forwardedInclude ↔
      field ∈ splitTopLevelCsv includeFields ∨ field ∈ requiredFields sortFields := by
  unfold projectionPlan
  simp only [some_, if_false, mem_foldl_addField]

/-- All fields are forwarded when all are asked for, and when a sort field has the name that
stands for all. -/
theorem includesAll_forwardedInclude :
    includesAll (projectionPlan includeFields excludeFields sortFields).forwardedInclude = true ↔
      includesAll (splitTopLevelCsv includeFields) = true ∨
        chars "*" ∈ requiredFields sortFields := by
  by_cases none_ : splitTopLevelCsv includeFields = []
  · simp [none_, projectionPlan, includesAll]
  · have forwarded : (projectionPlan includeFields excludeFields sortFields).forwardedInclude ≠ [] := by
      obtain ⟨field, member⟩ := List.exists_mem_of_ne_nil _ none_
      exact List.ne_nil_of_mem ((mem_forwardedInclude none_).mpr (Or.inl member))
    unfold includesAll
    simp [forwarded, none_, mem_forwardedInclude]

/-! ## The public document -/

theorem keptFor_forwardedInclude {path : List Text}
    (all : includesAll (splitTopLevelCsv includeFields) ≠ true) :
    includeKeeps (projectionPlan includeFields excludeFields sortFields).forwardedInclude document
      path = true ↔
      KeptFor ((splitTopLevelCsv includeFields).map pathParts ++
        (addedFields (splitTopLevelCsv includeFields) sortFields).map pathParts) document path := by
  have some_ : splitTopLevelCsv includeFields ≠ [] := fun empty => all (by simp [includesAll, empty])
  rw [includeKeeps_iff, ← List.map_append]
  unfold KeptFor
  simp only [List.mem_map, List.mem_append, mem_forwardedInclude some_]
  unfold addedFields
  simp only [List.mem_filter, decide_eq_true_eq, all]
  refine exists_congr fun wanted => and_congr_left fun _ => exists_congr fun field =>
    and_congr_left fun _ => ?_
  tauto

theorem onTheWay_congr {keep other : List Text → Prop} (same : ∀ path, keep path ↔ other path)
    {path : List Text} : OnTheWay keep path ↔ OnTheWay other path :=
  forall_congr' fun above => imp_congr_right fun _ => imp_congr_right fun _ => same above

/-- The two documents are the same when the same of their paths is shown. -/
theorem publicDocument_eq_iff {document : Json F} (unique : document.Unique)
    (all : includesAll (splitTopLevelCsv includeFields) ≠ true)
    (star : chars "*" ∉ requiredFields sortFields) :
    (projectionPlan includeFields excludeFields sortFields).publicDocument document =
      projectDocument (splitTopLevelCsv includeFields) (splitTopLevelCsv excludeFields) document ↔
    ∀ path, path ≠ [] → (document.valueAt path).isSome →
      (OnTheWay (Shown ((splitTopLevelCsv includeFields).map pathParts)
        ((splitTopLevelCsv excludeFields).map pathParts)
        ((addedFields (splitTopLevelCsv includeFields) sortFields).map pathParts) document) path ↔
      OnTheWay (Wanted ((splitTopLevelCsv includeFields).map pathParts)
        ((splitTopLevelCsv excludeFields).map pathParts) document) path) := by
  have some' : includesAll
      (projectionPlan includeFields excludeFields sortFields).forwardedInclude ≠ true :=
    fun every => (includesAll_forwardedInclude.mp every).elim all star
  rw [publicDocument_eq_prune, projectDocument_eq_prune, Json.prune_eq_iff unique]
  refine forall_congr' fun path => imp_congr_right fun _ => imp_congr_right fun _ => ?_
  refine iff_congr (onTheWay_congr fun above => ?_) (onTheWay_congr fun above => ?_)
  · unfold Shown
    rw [Bool.and_eq_true, Bool.or_eq_true, or_iff_right some', keptFor_forwardedInclude all,
      decide_eq_true_iff, List.map_append]
  · unfold Wanted
    rw [Bool.and_eq_true, Bool.or_eq_true, or_iff_right all, includeKeeps_iff, decide_eq_true_iff]

/-- A text that none of the paths begins with. -/
theorem exists_fresh (paths : List (List Text)) : ∃ name : Text, ∀ path ∈ paths, path.head? ≠ some name := by
  obtain ⟨name, fresh⟩ := Infinite.exists_notMem_finset (paths.filterMap List.head?).toFinset
  refine ⟨name, fun path member begins => fresh ?_⟩
  exact List.mem_toFinset.mpr (List.mem_filterMap.mpr ⟨path, member, begins⟩)

/-- A sort field with the name that stands for all shows what was not asked for. -/
theorem star_shows_more (excludeFields : Option Text)
    (all : includesAll (splitTopLevelCsv includeFields) ≠ true)
    (star : chars "*" ∈ requiredFields sortFields) : ∃ document : Json F, document.Unique ∧
      (projectionPlan includeFields excludeFields sortFields).publicDocument document ≠
        projectDocument (splitTopLevelCsv includeFields) (splitTopLevelCsv excludeFields)
          document := by
  obtain ⟨name, fresh⟩ := exists_fresh ((splitTopLevelCsv includeFields ++ (splitTopLevelCsv excludeFields ++
    addedFields (splitTopLevelCsv includeFields) sortFields)).map pathParts)
  refine ⟨Json.ofPath [name], Json.ofPath_unique [name], fun same => ?_⟩
  rw [publicDocument_eq_prune, projectDocument_eq_prune,
    Json.prune_eq_iff (Json.ofPath_unique [name])] at same
  have only : ∀ above : List Text, above ≠ [] → above <+: [name] → above = [name] := by
    intro above some_ onTheWay
    exact onTheWay.eq_of_length_le (List.length_pos_iff.mpr some_)
  have absent : ∀ fields ⊆ splitTopLevelCsv includeFields ++ (splitTopLevelCsv excludeFields ++
      addedFields (splitTopLevelCsv includeFields) sortFields), [name] ∉ fields.map pathParts := by
    intro fields inside member
    exact fresh [name] (List.map_subset pathParts inside member) rfl
  have agree := same [name] (List.cons_ne_nil _ _)
    ((Json.valueAt_ofPath [name] [name]).mpr (List.prefix_refl _))
  have asked := agree.mp (by
    intro above some_ onTheWay
    rw [only above some_ onTheWay, Bool.and_eq_true, Bool.or_eq_true, decide_eq_true_iff]
    exact ⟨Or.inl (includesAll_forwardedInclude.mpr (Or.inr star)),
      absent _ (List.subset_append_right _ _)⟩) [name] (List.cons_ne_nil _ _) (List.prefix_refl _)
  rw [Bool.and_eq_true, Bool.or_eq_true, or_iff_right all, includeKeeps_iff] at asked
  obtain ⟨⟨path, member, overlap⟩, -⟩ := asked
  obtain ⟨field, listed, rfl⟩ := List.mem_map.mp member
  have here : pathParts field = [name] := by
    rcases overlap with below | ⟨-, present⟩
    · exact only _ (pathParts_ne_nil field) below
    · exact only _ (pathParts_ne_nil field) ((Json.valueAt_ofPath _ _).mp present)
  exact absent _ (List.subset_append_left _ _) (here ▸ member)

/-- **The public document is the projection asked for** exactly when the added merge keys
stand apart, and no sort field has the name that stands for all. -/
theorem public_iff : (∀ document : Json F, document.Unique →
    (projectionPlan includeFields excludeFields sortFields).publicDocument document =
      projectDocument (splitTopLevelCsv includeFields) (splitTopLevelCsv excludeFields) document) ↔
    includesAll (splitTopLevelCsv includeFields) = true ∨
      chars "*" ∉ requiredFields sortFields ∧
        AddedApart ((splitTopLevelCsv includeFields).map pathParts)
          ((splitTopLevelCsv excludeFields).map pathParts)
          ((addedFields (splitTopLevelCsv includeFields) sortFields).map pathParts) := by
  have solid : ∀ fields : List Text, ∀ path ∈ fields.map pathParts, path ≠ [] := by
    intro fields path member
    obtain ⟨field, -, rfl⟩ := List.mem_map.mp member
    exact pathParts_ne_nil field
  by_cases all : includesAll (splitTopLevelCsv includeFields) = true
  · refine iff_of_true (fun document unique => ?_) (Or.inl all)
    have none_ : addedFields (splitTopLevelCsv includeFields) sortFields = [] :=
      List.filter_eq_nil_iff.mpr fun field _ => by simp [all]
    rw [publicDocument_eq_prune, projectDocument_eq_prune, none_, List.append_nil, all,
      includesAll_forwardedInclude.mpr (Or.inl all)]
    rfl
  · rw [or_iff_right all]
    constructor
    · intro same
      have star : chars "*" ∉ requiredFields sortFields := by
        intro star
        obtain ⟨document, unique, differs⟩ := star_shows_more (F := F) excludeFields all star
        exact differs (same document unique)
      refine ⟨star, AddedApart.of_onTheWay_iff (F := F) ?_ fun document path unique => ?_⟩
      · rw [← List.map_append]
        exact solid _
      · exact (publicDocument_eq_iff unique all star).mp (same document unique) path
    · rintro ⟨star, apart⟩ document unique
      refine (publicDocument_eq_iff unique all star).mpr fun path _ _ => apart.onTheWay_iff ?_
      rw [← List.map_append]
      exact solid _

/-! ## The merge keys -/

theorem forwards_key (includeFields excludeFields : Option Text) {key : Text}
    (needed : key ∈ requiredFields sortFields) :
    includesAll (projectionPlan includeFields excludeFields sortFields).forwardedInclude = true ∨
      key ∈ (projectionPlan includeFields excludeFields sortFields).forwardedInclude := by
  by_cases none_ : splitTopLevelCsv includeFields = []
  · exact Or.inl (includesAll_forwardedInclude.mpr (Or.inl (by simp [includesAll, none_])))
  · exact Or.inr ((mem_forwardedInclude none_).mpr (Or.inr needed))

/-- **Every merge key survives** exactly when no other excluded path overlaps it. -/
theorem keys_survive_iff : (∀ document : Json F, document.Unique →
    ∀ key ∈ requiredFields sortFields,
      getDocumentValue ((projectionPlan includeFields excludeFields sortFields).shardDocument
        document) key = getDocumentValue document key) ↔
    ∀ out ∈ splitTopLevelCsv excludeFields, out ∉ requiredFields sortFields →
      ∀ key ∈ requiredFields sortFields, ¬Overlap (pathParts out) (pathParts key) := by
  unfold ProjectionPlan.shardDocument
  have forwarded : ∀ out, out ∈ (projectionPlan includeFields excludeFields sortFields).forwardedExclude ↔
      out ∈ splitTopLevelCsv excludeFields ∧ out ∉ requiredFields sortFields := by
    intro out
    unfold projectionPlan
    simp only [List.mem_filter, decide_eq_true_eq]
  constructor
  · intro survive out excluded notKey key needed overlap
    obtain ⟨deep, outHere, keyHere, -⟩ := overlap.deeper
    have same := survive (Json.ofPath deep) (Json.ofPath_unique deep) key needed
    obtain ⟨below, rfl⟩ := keyHere
    -- the part at the deeper path is there, and it is below the excluded one
    have there := congrArg (fun part => (part.bind fun v => v.valueAt below).isSome) same
    unfold getDocumentValue at there
    simp only [← Json.valueAt_append] at there
    rw [(Json.valueAt_ofPath _ _).mpr (List.prefix_refl _), projectDocument_eq_prune,
      (Json.valueAt_prune _ (Json.ofPath_unique _) _).2 ?_] at there
    · cases there
    · intro visible
      have kept := visible (pathParts out) (pathParts_ne_nil out) outHere
      rw [Bool.and_eq_true, decide_eq_true_iff] at kept
      exact kept.2 (List.mem_map.mpr ⟨out, (forwarded out).mpr ⟨excluded, notKey⟩, rfl⟩)
  · intro apart document unique key needed
    unfold getDocumentValue
    rw [projectDocument_eq_prune]
    have notExcluded : ∀ path, Overlap path (pathParts key) → path ∉
        (projectionPlan includeFields excludeFields sortFields).forwardedExclude.map pathParts := by
      intro path overlap member
      obtain ⟨out, listed, rfl⟩ := List.mem_map.mp member
      obtain ⟨excluded, notKey⟩ := (forwarded out).mp listed
      exact apart out excluded notKey key needed overlap
    obtain ⟨shown, hidden⟩ := Json.valueAt_prune (fun path =>
      (includesAll (projectionPlan includeFields excludeFields sortFields).forwardedInclude ||
        includeKeeps (projectionPlan includeFields excludeFields sortFields).forwardedInclude
          document path) && decide (path ∉
        (projectionPlan includeFields excludeFields sortFields).forwardedExclude.map pathParts))
      unique (pathParts key)
    cases there : document.valueAt (pathParts key) with
    | none =>
        rw [there] at shown
        exact (Classical.em _).elim shown hidden
    | some part =>
        have wanted : ∀ path, Overlap path (pathParts key) →
            (includesAll (projectionPlan includeFields excludeFields sortFields).forwardedInclude ||
              includeKeeps (projectionPlan includeFields excludeFields sortFields).forwardedInclude
                document path) = true := by
          intro path overlap
          rw [Bool.or_eq_true]
          rcases forwards_key includeFields excludeFields needed with all | member
          · exact Or.inl all
          · refine Or.inr (includeKeeps_iff.mpr ⟨_, List.mem_map.mpr ⟨key, member, rfl⟩, ?_⟩)
            exact overlap.symm.imp_right fun above => ⟨above, by rw [there]; rfl⟩
        have kept : ∀ path, Overlap path (pathParts key) → _ := fun path overlap =>
          (Bool.and_eq_true _ _).mpr ⟨wanted path overlap, decide_eq_true (notExcluded path overlap)⟩
        rw [shown fun above _ onTheWay => kept above (Or.inl onTheWay), there, Option.map_some]
        congr 1
        exact Json.prune_of_kept part fun below _ =>
          kept (pathParts key ++ below) (Or.inr (List.prefix_append _ _))

/-! ## Transparency -/

/-- The merge keys stand apart from what is excluded, and from what is included unless all
fields are. -/
structure MergeKeysApart (included excluded : List Text) (sortFields : List SortField) : Prop where
  survive : ∀ out ∈ excluded, out ∉ requiredFields sortFields →
    ∀ key ∈ requiredFields sortFields, ¬Overlap (pathParts out) (pathParts key)
  leave : includesAll included = true ∨ chars "*" ∉ requiredFields sortFields ∧
    AddedApart (included.map pathParts) (excluded.map pathParts)
      ((addedFields included sortFields).map pathParts)

/-- **The projection is transparent exactly when the merge keys stand apart**: then every
merge key of a document survives, and the public document is the one asked for. -/
theorem projection_transparent_iff :
    (∀ document : Json F, document.Unique →
      (∀ key ∈ requiredFields sortFields,
        getDocumentValue ((projectionPlan includeFields excludeFields sortFields).shardDocument
          document) key = getDocumentValue document key) ∧
      (projectionPlan includeFields excludeFields sortFields).publicDocument document =
        projectDocument (splitTopLevelCsv includeFields) (splitTopLevelCsv excludeFields) document) ↔
    MergeKeysApart (splitTopLevelCsv includeFields) (splitTopLevelCsv excludeFields) sortFields := by
  constructor
  · intro transparent
    exact ⟨keys_survive_iff.mp fun document unique => (transparent document unique).1,
      public_iff.mp fun document unique => (transparent document unique).2⟩
  · rintro ⟨survive, leave⟩ document unique
    exact ⟨keys_survive_iff.mpr survive document unique, public_iff.mpr leave document unique⟩

/-- A sort field is lost when the object around it is excluded. -/
theorem excluded_parent_loses_key : ∃ sortFields,
    parseSortFields (chars "a.b:asc") false = some sortFields ∧
    ∃ document : Json Unit, document.Unique ∧ ∃ key ∈ requiredFields sortFields,
      getDocumentValue ((projectionPlan none (some (chars "a")) sortFields).shardDocument
        document) key ≠ getDocumentValue document key := by
  refine ⟨[⟨chars "a.b", .asc⟩, ⟨chars "_text_match", .desc⟩], by decide +kernel,
    .object [(chars "id", .str (chars "1")), (chars "a", .object [(chars "b", .int 1)])],
    by decide +kernel, chars "a.b", by decide +kernel, fun same => ?_⟩
  have there := congrArg Option.isSome same
  revert there
  decide +kernel

end ImposbroSearch.Search
