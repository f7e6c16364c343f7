import ImposbroSearch.Search.Hits

/-!
# Projection of search results

A search names the fields it wants and those it does not want. The gateway needs the id and
the sort fields of each hit too, so it forwards a wider projection and narrows the result
again. The cluster's projection is a parameter of the request here: it keeps the part at a
path that is included, without a trace of an included path that is not there, and drops the
part at a path that is excluded.
-/

namespace ImposbroSearch.Search

open ImposbroSearch.Foundation

variable {F : Type}

/-! ## The forwarded projection -/

/-- The loop of `_split_top_level_csv`: what is left, the characters since the last comma,
and how many parentheses are open. -/
def splitFrom : Text → Text → ℕ → List Text
  | [], current, _ => if stripText current = [] then [] else [stripText current]
  | c :: rest, current, depth =>
    let depth := if c = 40 then depth + 1 else if c = 41 then depth - 1 else depth
    if c = 44 ∧ depth = 0 then
      if stripText current = [] then splitFrom rest [] depth
      else stripText current :: splitFrom rest [] depth
    else splitFrom rest (current ++ [c]) depth

/-- `_split_top_level_csv` -/
def splitTopLevelCsv (value : Option Text) : List Text :=
  splitFrom (value.getD []) [] 0

/-- The item at the end of the list, once. -/
def addField (fields : List Text) (field : Text) : List Text :=
  if field ∈ fields then fields else fields ++ [field]

/-- The id, and the sort fields that are fields of the document. -/
def requiredFields (sortFields : List SortField) : List Text :=
  (sortFields.filter fun sort =>
    sort.field ∉ textMatchFields ∧ sort.field ∉ vectorDistanceFields).foldl
      (fun required sort => addField required sort.field) [chars "id"]

structure ProjectionPlan where
  forwardedInclude : List Text
  forwardedExclude : List Text
  internalOnly : List Text
  deriving DecidableEq, Repr

/-- No fields are named, or all are. -/
def includesAll (fields : List Text) : Bool := fields = [] || chars "*" ∈ fields

/-- `_projection_plan`. The forwarded lists are joined by commas, and an empty one is not
forwarded. -/
def projectionPlan (includeFields excludeFields : Option Text) (sortFields : List SortField) :
    ProjectionPlan :=
  let included := splitTopLevelCsv includeFields
  let excluded := splitTopLevelCsv excludeFields
  let required := requiredFields sortFields
  { forwardedInclude := if included = [] then [] else required.foldl addField included
    forwardedExclude := excluded.filter (· ∉ required)
    internalOnly := required.filter fun field =>
      ¬includesAll included ∧ field ∉ included ∨ field ∈ excluded }

/-! ## Projections of documents -/

/-- A path is kept below an included field, and on the way to one that the document has. -/
def includeKeeps (fields : List Text) (document : Json F) (path : List Text) : Bool :=
  fields.any fun field => (pathParts field).isPrefixOf path ||
    path.isPrefixOf (pathParts field) && (getDocumentValue document field).isSome

/-- The projection that a cluster makes: the included fields, without the excluded ones. -/
def projectDocument (included excluded : List Text) (document : Json F) : Json F :=
  let wanted := if includesAll included then document else document.prune (includeKeeps included document)
  wanted.prune fun path => path ∉ excluded.map pathParts

/-- What a cluster returns of a document. -/
def ProjectionPlan.shardDocument (plan : ProjectionPlan) (document : Json F) : Json F :=
  projectDocument plan.forwardedInclude plan.forwardedExclude document

/-- `_hide_internal_projection_fields`, of the document of a hit. -/
def hideInternalProjectionFields (internalOnly : List Text) (document : Json F) : Json F :=
  internalOnly.foldl (fun document field => document.removePath (pathParts field)) document

/-- The document of the public response. -/
def ProjectionPlan.publicDocument (plan : ProjectionPlan) (document : Json F) : Json F :=
  hideInternalProjectionFields plan.internalOnly (plan.shardDocument document)

/-! ## Fields of the plan -/

theorem mem_addField {fields : List Text} {added field : Text} :
    field ∈ addField fields added ↔ field ∈ fields ∨ field = added := by
  unfold addField
  split_ifs with present
  · constructor
    · exact Or.inl
    · rintro (member | rfl)
      · exact member
      · exact present
  · rw [List.mem_append, List.mem_singleton]

theorem mem_foldl_addField {fields added : List Text} {field : Text} :
    field ∈ added.foldl addField fields ↔ field ∈ fields ∨ field ∈ added := by
  induction added generalizing fields with
  | nil => simp
  | cons first added ih => rw [List.foldl_cons, ih, mem_addField, List.mem_cons, or_assoc]

theorem id_mem_requiredFields (sortFields : List SortField) :
    chars "id" ∈ requiredFields sortFields := by
  unfold requiredFields
  rw [← List.foldl_map (f := fun sort : SortField => sort.field) (g := addField), mem_foldl_addField]
  exact Or.inl (List.mem_singleton.mpr rfl)

/-- Every sort field that is read from the document is required. -/
theorem mem_requiredFields {sortFields : List SortField} {sort : SortField}
    (member : sort ∈ sortFields) (text : sort.field ∉ textMatchFields)
    (vector : sort.field ∉ vectorDistanceFields) : sort.field ∈ requiredFields sortFields := by
  unfold requiredFields
  rw [← List.foldl_map (f := fun sort : SortField => sort.field) (g := addField), mem_foldl_addField]
  refine Or.inr (List.mem_map.mpr ⟨sort, List.mem_filter.mpr ⟨member, ?_⟩, rfl⟩)
  exact decide_eq_true ⟨text, vector⟩

end ImposbroSearch.Search
