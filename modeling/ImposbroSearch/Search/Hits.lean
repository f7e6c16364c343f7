import ImposbroSearch.Foundation.BestMerge
import ImposbroSearch.Foundation.JsonPaths
import ImposbroSearch.Foundation.Texts

/-!
# Search hits and their order

What the gateway compares of the hits that clusters return: the values of the sort fields,
and at last the document ids. Numbers are compared as numbers; other values are compared by
`str(value).casefold()`, of which nothing is used but that it is a text.

The comparison is an order where the values of each sort field are all numbers or all
something else. A NaN ties with every number.
-/

namespace ImposbroSearch.Search

open ImposbroSearch.Foundation

variable {F : Type}

scoped instance (field : Text) (fields : List Text) : Decidable (field ∈ fields) :=
  decidable_of_iff (∃ other ∈ fields, other = field) (by simp)

/-! ## Sort fields -/

inductive Direction where
  | asc
  | desc
  deriving DecidableEq, Repr

structure SortField where
  field : Text
  direction : Direction
  deriving DecidableEq, Repr

def textMatchFields : List Text := [chars "_text_match", chars "text_match"]

def vectorDistanceFields : List Text := [chars "_vector_distance", chars "vector_distance"]

/-- `rsplit(":", 1)`, where there is a colon. -/
def rsplitColon (text : Text) : Option (Text × Text) :=
  let behind := text.reverse.takeWhile (· ≠ 58)
  if behind.length = text.length then none
  else some (text.take (text.length - behind.length - 1), behind.reverse)

/-- `lower`, of the directions. -/
def parseDirection (text : Text) : Option Direction :=
  let lower := text.map fun c => if 65 ≤ c ∧ c ≤ 90 then c + 32 else c
  if lower = chars "asc" then some .asc
  else if lower = chars "desc" then some .desc
  else none

/-- One expression of `sort_by`. -/
def parseSortField (rawField : Text) : Option SortField :=
  if 40 ∈ rawField ∨ 41 ∈ rawField then none
  else
    let (name, direction) := (rsplitColon rawField).getD (rawField, chars "desc")
    match parseDirection (stripText direction) with
    | none => none
    | some direction => if stripText name = [] then none else some ⟨stripText name, direction⟩

/-- `_parse_sort_fields`; an expression that is not supported is an error. -/
def parseSortFields (sortBy : Text) (hasVectorQuery : Bool) : Option (List SortField) :=
  (((sortBy.splitOn 44).map stripText).filter (· ≠ [])).mapM parseSortField |>.map fun fields =>
    if fields = [] then
      if hasVectorQuery then
        [⟨chars "_text_match", .desc⟩, ⟨chars "_vector_distance", .asc⟩]
      else [⟨chars "_text_match", .desc⟩]
    else
      let hasTextMatch := fields.any fun sort => sort.field ∈ textMatchFields
      let hasVectorDistance := fields.any fun sort => sort.field ∈ vectorDistanceFields
      let fields :=
        if hasVectorQuery ∧ ¬hasVectorDistance ∧ fields.length < 3 then
          fields ++ [⟨chars "_vector_distance", .asc⟩]
        else fields
      if ¬hasTextMatch ∧ fields.length < 3 then fields ++ [⟨chars "_text_match", .desc⟩]
      else fields

/-! ## Hits -/

/-- A hit of a cluster. Ids of documents are texts. -/
structure SearchHit (F : Type) where
  document : Json F
  textMatch : Option (Json F)
  vectorDistance : Option (Json F)
  highlights : Json F

/-- `_get_document_value` -/
def getDocumentValue (document : Json F) (path : Text) : Option (Json F) :=
  document.valueAt (pathParts path)

/-- A value that is there; `null` is none. -/
def present : Option (Json F) → Option (Json F)
  | some .null => none
  | value => value

/-- `_hit_sort_value` -/
def SearchHit.sortValue (hit : SearchHit F) (field : Text) : Option (Json F) :=
  if field ∈ textMatchFields then present hit.textMatch
  else if field ∈ vectorDistanceFields then present hit.vectorDistance
  else present (getDocumentValue hit.document field)

/-- The id of the document, or the empty text. -/
def SearchHit.documentId (hit : SearchHit F) : Text :=
  match hit.document.field (chars "id") with
  | some (.str text) => text
  | _ => []

/-! ## Comparison -/

/-- A number, if the value is one: `isinstance(value, (int, float))`. -/
inductive PyNumber where
  | finite (value : ℚ)
  | infinite (negative : Bool)
  | nan
  deriving DecidableEq

/-- Where the number stands among the others; a NaN stands nowhere. -/
def PyNumber.place : PyNumber → Option (WithBot (WithTop ℚ))
  | .finite value => some ((value : WithTop ℚ) : WithBot (WithTop ℚ))
  | .infinite false => some ((⊤ : WithTop ℚ) : WithBot (WithTop ℚ))
  | .infinite true => some ⊥
  | .nan => none

section Compare

variable [PyFloat F]

def number : Json F → Option PyNumber
  | .bool value => some (.finite (if value then 1 else 0))
  | .int n => some (.finite n)
  | .float x => some (.finite (PyFloat.exact x))
  | .nan => some .nan
  | .infinity negative => some (.infinite negative)
  | _ => none

variable (folded : Json F → Text)

/-- `_compare_scalar`, where `folded` is `str(value).casefold()`. -/
def compareScalar (left right : Json F) : Ordering :=
  match number left, number right with
  | some first, some second =>
    match first.place, second.place with
    | some first, some second => comparison first second
    | _, _ => .eq
  | _, _ => comparison (folded left) (folded right)

/-- The comparison by one field: a hit without the value comes last. -/
def compareField (sort : SortField) (left right : SearchHit F) : Ordering :=
  match left.sortValue sort.field, right.sortValue sort.field with
  | none, none => .eq
  | none, some _ => .gt
  | some _, none => .lt
  | some left, some right =>
    match sort.direction with
    | .asc => compareScalar folded left right
    | .desc => (compareScalar folded left right).swap

/-- The comparison by all fields. -/
def compareFields : List SortField → SearchHit F → SearchHit F → Ordering
  | [], _, _ => .eq
  | sort :: fields, left, right =>
    (compareField folded sort left right).then (compareFields fields left right)

/-- `_compare_hits` -/
def compareHits (fields : List SortField) (left right : SearchHit F) : Ordering :=
  (compareFields folded fields left right).then (comparison left.documentId right.documentId)

end Compare

/-! ## The order of hits -/

variable [PyFloat F] {folded : Json F → Text} {hits : List (SearchHit F)} {sort : SortField}
  {fields : List SortField}

/-- The values of the field are all numbers, none of them a NaN, or none is a number. -/
def Homogeneous (hits : List (SearchHit F)) (field : Text) : Prop :=
  (∀ hit ∈ hits, ∀ value ∈ hit.sortValue field, ∃ n ∈ number value, n ≠ .nan) ∨
    ∀ hit ∈ hits, ∀ value ∈ hit.sortValue field, number value = none

/-- Values that are ranked rank the hits that have them; hits without a value come last. -/
theorem ranksOn_compareField {V : Json F → Prop} (ranks : RanksOn (compareScalar folded) V)
    (inside : ∀ hit ∈ hits, ∀ value ∈ hit.sortValue sort.field, V value) :
    RanksOn (compareField folded sort) (· ∈ hits) := by
  have directed : RanksOn (fun left right => match sort.direction with
      | .asc => compareScalar folded left right
      | .desc => (compareScalar folded left right).swap) V := by
    cases sort.direction with
    | asc => exact ranks
    | desc => exact ranks.backwards
  constructor
  case swap =>
    intro a b first second
    unfold compareField
    cases left : a.sortValue sort.field with
    | none =>
        cases right : b.sortValue sort.field with
        | _ => rfl
    | some value =>
        cases right : b.sortValue sort.field with
        | none => rfl
        | some other => exact directed.swap (inside a first value left) (inside b second other right)
  case trans =>
    intro a b c first second third
    unfold compareField
    cases left : a.sortValue sort.field with
    | none =>
        cases middle : b.sortValue sort.field with
        | none =>
            cases right : c.sortValue sort.field with
            | none => exact fun _ _ gt => (nomatch gt)
            | some _ => exact fun _ gt => gt
        | some _ => exact fun gt => absurd rfl gt
    | some value =>
        cases middle : b.sortValue sort.field with
        | none =>
            cases right : c.sortValue sort.field with
            | none => exact fun le _ => le
            | some _ => exact fun _ gt => absurd rfl gt
        | some other =>
            cases right : c.sortValue sort.field with
            | none => exact fun _ _ gt => (nomatch gt)
            | some last =>
                exact directed.trans (inside a first value left) (inside b second other middle)
                  (inside c third last right)

/-- Present values are compared by a key. -/
theorem ranksOn_of_key {K : Type*} [LinearOrder K] (key : Json F → K)
    (same : ∀ left ∈ hits, ∀ right ∈ hits, ∀ value ∈ left.sortValue sort.field,
      ∀ other ∈ right.sortValue sort.field,
        compareScalar folded value other = comparison (key value) (key other)) :
    RanksOn (compareField folded sort) (· ∈ hits) := by
  refine ranksOn_compareField (V := fun value => ∃ hit ∈ hits, value ∈ hit.sortValue sort.field) ?_
    fun hit listed value here => ⟨hit, listed, here⟩
  have keyed := ranksOn_comparison (S := fun _ => True) key
  constructor
  case swap =>
    rintro value other ⟨a, first, here⟩ ⟨b, second, there⟩
    rw [same a first b second value here other there, same b second a first other there value here]
    exact keyed.swap trivial trivial
  case trans =>
    rintro value other last ⟨a, first, here⟩ ⟨b, second, there⟩ ⟨c, third, at_⟩
    rw [same a first b second value here other there, same b second c third other there last at_,
      same a first c third value here last at_]
    exact keyed.trans trivial trivial trivial

/-- **A homogeneous field** orders the hits, with ties. -/
theorem Homogeneous.ranksOn (homogeneous : Homogeneous hits sort.field) :
    RanksOn (compareField folded sort) (· ∈ hits) := by
  rcases homogeneous with numbers | others
  · let key : Json F → WithBot (WithTop ℚ) := fun value =>
      ((number value).bind PyNumber.place).getD ⊥
    refine ranksOn_of_key key fun left first right second value here other there => ?_
    obtain ⟨n, isNumber, notNan⟩ := numbers left first value here
    obtain ⟨m, isNumber', notNan'⟩ := numbers right second other there
    have placed : ∀ n : PyNumber, n ≠ .nan → ∃ place, n.place = some place := by
      intro n notNan
      cases n with
      | finite value => exact ⟨_, rfl⟩
      | infinite negative => cases negative <;> exact ⟨_, rfl⟩
      | nan => exact absurd rfl notNan
    obtain ⟨place, at_⟩ := placed n notNan
    obtain ⟨place', at_'⟩ := placed m notNan'
    unfold compareScalar
    simp only [key, Option.mem_def.mp isNumber, Option.mem_def.mp isNumber', at_, at_',
      Option.bind_some, Option.getD_some]
  · refine ranksOn_of_key folded fun left first right second value here other there => ?_
    unfold compareScalar
    simp only [others left first value here]

theorem ranksOn_compareFields (homogeneous : ∀ sort ∈ fields, Homogeneous hits sort.field) :
    RanksOn (compareFields folded fields) (· ∈ hits) := by
  induction fields with
  | nil => exact ⟨fun _ _ => rfl, fun _ _ _ _ _ gt => (nomatch gt)⟩
  | cons sort fields ih =>
      exact (homogeneous sort List.mem_cons_self).ranksOn.then
        (ih fun other member => homogeneous other (List.mem_cons_of_mem _ member))

/-- **Hits are ordered**, and only those of one document tie. -/
theorem orderedOn_compareHits (homogeneous : ∀ sort ∈ fields, Homogeneous hits sort.field) :
    OrderedOn SearchHit.documentId (compareHits folded fields) (· ∈ hits) where
  toRanksOn := (ranksOn_compareFields homogeneous).then (ranksOn_comparison _)
  tie _ _ same := comparison_eq.mp (Ordering.then_eq_eq.mp same).2

end ImposbroSearch.Search
