import ImposbroSearch.Foundation.JsonObjects

/-!
# Paths in JSON values

A path names a part of a value, through objects only. Pruning keeps the fields whose paths
are kept; a field is left when every path on the way to it is kept. So two prunings of a
value are the same when they leave the same of its paths.
-/

namespace ImposbroSearch.Foundation.Json

variable {F : Type}

/-- The part of a value at a path. -/
def valueAt : Json F → List Text → Option (Json F)
  | v, [] => some v
  | v, key :: path => (v.field key).bind fun inner => valueAt inner path

mutual

/-- The value with the fields whose paths are kept. -/
def prune (keep : List Text → Bool) : Json F → Json F
  | .object fields => .object (pruneFields keep fields)
  | .null => .null
  | .bool value => .bool value
  | .int n => .int n
  | .float x => .float x
  | .nan => .nan
  | .infinity negative => .infinity negative
  | .str text => .str text
  | .list items => .list items

def pruneFields (keep : List Text → Bool) : List (Text × Json F) → List (Text × Json F)
  | [] => []
  | (key, value) :: fields =>
    if keep [key] then
      (key, prune (fun path => keep (key :: path)) value) :: pruneFields keep fields
    else pruneFields keep fields

end

/-- A path is left when every path on the way to it is kept. -/
def Visible (keep : List Text → Bool) (path : List Text) : Prop :=
  ∀ above, above ≠ [] → above <+: path → keep above = true

variable {keep other : List Text → Bool} {key : Text} {path : List Text}

theorem visible_cons : Visible keep (key :: path) ↔
    keep [key] = true ∧ Visible (fun path => keep (key :: path)) path := by
  constructor
  · intro visible
    refine ⟨visible [key] (List.cons_ne_nil _ _) ⟨path, rfl⟩, fun above _ onTheWay => ?_⟩
    exact visible (key :: above) (List.cons_ne_nil _ _) (List.prefix_cons_inj key |>.mpr onTheWay)
  · rintro ⟨first, rest⟩ above some_ onTheWay
    obtain ⟨left, same⟩ := onTheWay
    cases above with
    | nil => exact absurd rfl some_
    | cons head above =>
        obtain ⟨rfl, below⟩ := List.cons.inj same
        cases above with
        | nil => exact first
        | cons next above => exact rest (next :: above) (List.cons_ne_nil _ _) ⟨left, below⟩

theorem visible_nil : Visible keep [] :=
  fun _ some_ onTheWay => absurd (List.prefix_nil.mp onTheWay) some_

/-! ## Fields of a pruned object -/

theorem mem_pruneFields {fields : List (Text × Json F)} {field : Text × Json F} :
    field ∈ pruneFields keep fields ↔ keep [field.1] = true ∧ ∃ value, (field.1, value) ∈ fields ∧
      field.2 = prune (fun path => keep (field.1 :: path)) value := by
  induction fields with
  | nil => simp [pruneFields]
  | cons first fields ih =>
      obtain ⟨key, value⟩ := first
      obtain ⟨name, part⟩ := field
      unfold pruneFields
      by_cases kept : keep [key] = true
      · rw [if_pos kept, List.mem_cons, ih]
        constructor
        · rintro (same | ⟨here, below, member, pruned⟩)
          · obtain ⟨rfl, rfl⟩ := Prod.mk.inj same
            exact ⟨kept, value, List.mem_cons_self, rfl⟩
          · exact ⟨here, below, List.mem_cons_of_mem _ member, pruned⟩
        · rintro ⟨here, below, member, pruned⟩
          rcases List.mem_cons.mp member with same | later
          · obtain ⟨rfl, rfl⟩ := Prod.mk.inj same
            exact Or.inl (Prod.ext rfl pruned)
          · exact Or.inr ⟨here, below, later, pruned⟩
      · rw [if_neg kept, ih]
        refine and_congr_right fun here => ?_
        have differs : name ≠ key := fun same => kept (same ▸ here)
        simp [differs]

theorem pruneFields_keys (keep : List Text → Bool) (fields : List (Text × Json F)) :
    (pruneFields keep fields).map Prod.fst = (fields.map Prod.fst).filter fun key => keep [key] := by
  induction fields with
  | nil => rfl
  | cons field fields ih =>
      obtain ⟨key, value⟩ := field
      unfold pruneFields
      rw [List.map_cons, List.filter_cons]
      by_cases kept : keep [key] = true
      · rw [if_pos kept, if_pos kept, List.map_cons, ih]
      · rw [if_neg kept, if_neg kept, ih]

theorem lookup_pruneFields {fields : List (Text × Json F)}
    (distinct : (fields.map Prod.fst).Nodup) (key : Text) :
    (pruneFields keep fields).lookup key =
      if keep [key] then (fields.lookup key).map (prune fun path => keep (key :: path)) else none := by
  have distinct' : ((pruneFields keep fields).map Prod.fst).Nodup := by
    rw [pruneFields_keys]
    exact distinct.filter _
  ext value
  rw [lookup_eq_some_iff_mem distinct', mem_pruneFields]
  by_cases kept : keep [key] = true
  · rw [if_pos kept, Option.map_eq_some_iff]
    simp only [kept, true_and]
    constructor
    · rintro ⟨before, member, rfl⟩
      exact ⟨before, (lookup_eq_some_iff_mem distinct).mpr member, rfl⟩
    · rintro ⟨before, found, rfl⟩
      exact ⟨before, (lookup_eq_some_iff_mem distinct).mp found, rfl⟩
  · simp [kept]

theorem Unique.prune {v : Json F} (unique : v.Unique) (keep : List Text → Bool) :
    (v.prune keep).Unique := by
  induction v using nestedInduction generalizing keep with
  | object fields ih =>
      unfold Json.prune
      rw [unique_iff, forall_parts_object]
      refine ⟨?_, fun field member => ⟨trivial, ?_⟩⟩
      · show ((pruneFields keep fields).map Prod.fst).Nodup
        rw [pruneFields_keys]
        exact unique.nodup.filter _
      · obtain ⟨-, value, listed, same⟩ := mem_pruneFields.mp member
        rw [same, ← unique_iff]
        exact ih _ listed (unique.of_field listed) _
  | list items _ => exact unique
  | _ => exact unique

theorem field_prune {v : Json F} (unique : v.Unique) (key : Text) :
    (v.prune keep).field key =
      if keep [key] then (v.field key).map (prune fun path => keep (key :: path)) else none := by
  cases v with
  | object fields => exact lookup_pruneFields unique.nodup key
  | _ =>
      unfold prune field
      simp

/-- A field is a value without repeated keys. -/
theorem Unique.of_field_eq {v inner : Json F} (unique : v.Unique) {key : Text}
    (found : v.field key = some inner) : inner.Unique := by
  cases v with
  | object fields =>
      exact unique.of_field ((lookup_eq_some_iff_mem unique.nodup).mp found)
  | _ => cases found

/-- **The parts of a pruned value** are those of the value at the visible paths. -/
theorem valueAt_prune (keep : List Text → Bool) {v : Json F} (unique : v.Unique) (path : List Text) :
    (Visible keep path → (v.prune keep).valueAt path =
      (v.valueAt path).map (prune fun below => keep (path ++ below))) ∧
      (¬Visible keep path → (v.prune keep).valueAt path = none) := by
  induction path generalizing v keep with
  | nil =>
      refine ⟨fun _ => ?_, fun hidden => absurd visible_nil hidden⟩
      rfl
  | cons key path ih =>
      unfold valueAt
      rw [visible_cons, field_prune unique]
      by_cases kept : keep [key] = true
      · rw [if_pos kept]
        simp only [kept, true_and]
        cases found : v.field key with
        | none => exact ⟨fun _ => rfl, fun _ => rfl⟩
        | some inner =>
            exact ih _ (unique.of_field_eq found)
      · rw [if_neg kept]
        exact ⟨fun visible => absurd visible.1 kept, fun _ => rfl⟩

/-! ## Prunings that agree -/

theorem prune_congr {v : Json F} (unique : v.Unique)
    (same : ∀ path, path ≠ [] → (v.valueAt path).isSome → (Visible keep path ↔ Visible other path)) :
    v.prune keep = v.prune other := by
  induction v using nestedInduction generalizing keep other with
  | object fields ih =>
      have listed : ∀ field ∈ fields, ∀ path,
          valueAt (object fields) (field.1 :: path) = field.2.valueAt path := by
        intro field member path
        have found : (object fields).field field.1 = some field.2 :=
          (lookup_eq_some_iff_mem unique.nodup).mpr member
        rw [valueAt, found, Option.bind_some]
      have each : ∀ some_ ⊆ fields, pruneFields keep some_ = pruneFields other some_ := by
        intro some_ inside
        induction some_ with
        | nil => rfl
        | cons field rest step =>
            obtain ⟨key, value⟩ := field
            have member : (key, value) ∈ fields := inside List.mem_cons_self
            have single : keep [key] = true ↔ other [key] = true := by
              have agree := same [key] (List.cons_ne_nil _ _)
                (by rw [listed _ member]; rfl)
              rwa [visible_cons, visible_cons, and_iff_left visible_nil,
                and_iff_left visible_nil] at agree
            unfold pruneFields
            rw [step fun x here => inside (List.mem_cons_of_mem _ here)]
            by_cases kept : keep [key] = true
            · rw [if_pos kept, if_pos (single.mp kept)]
              have below : value.prune (fun path => keep (key :: path)) =
                  value.prune fun path => other (key :: path) := by
                refine ih _ member (unique.of_field member) fun path _ there => ?_
                have agree := same (key :: path) (List.cons_ne_nil _ _)
                  (by rw [listed _ member]; exact there)
                rwa [visible_cons, visible_cons, and_iff_right kept,
                  and_iff_right (single.mp kept)] at agree
              rw [below]
            · rw [if_neg kept, if_neg fun there => kept (single.mpr there)]
      unfold prune
      rw [each fields (List.Subset.refl fields)]
  | list items _ => rfl
  | _ => rfl

/-- **Two prunings** of a value are the same when they leave the same of its paths. -/
theorem prune_eq_iff {v : Json F} (unique : v.Unique) : v.prune keep = v.prune other ↔
    ∀ path, path ≠ [] → (v.valueAt path).isSome → (Visible keep path ↔ Visible other path) := by
  refine ⟨fun same path _ there => ?_, prune_congr unique⟩
  obtain ⟨part, found⟩ := Option.isSome_iff_exists.mp there
  obtain ⟨shown, hidden⟩ := valueAt_prune keep unique path
  obtain ⟨shown', hidden'⟩ := valueAt_prune other unique path
  rw [same] at shown hidden
  rw [found, Option.map_some] at shown shown'
  constructor
  · intro visible
    by_contra unseen
    rw [hidden' unseen] at shown
    cases shown visible
  · intro visible
    by_contra unseen
    rw [hidden unseen] at shown'
    cases shown' visible

theorem prune_prune (v : Json F) (keep other : List Text → Bool) :
    (v.prune keep).prune other = v.prune fun path => keep path && other path := by
  induction v using nestedInduction generalizing keep other with
  | object fields ih =>
      have each : ∀ some_ ⊆ fields, pruneFields other (pruneFields keep some_) =
          pruneFields (fun path => keep path && other path) some_ := by
        intro some_ inside
        induction some_ with
        | nil => rfl
        | cons field rest step =>
            obtain ⟨key, value⟩ := field
            have next := step fun x here => inside (List.mem_cons_of_mem _ here)
            rw [pruneFields, pruneFields]
            by_cases kept : keep [key] = true
            · rw [if_pos kept, pruneFields, next]
              simp only [kept, Bool.true_and]
              rw [ih _ (inside List.mem_cons_self)]
            · rw [if_neg kept, next]
              simp [kept]
      show object _ = object _
      rw [each fields (List.Subset.refl fields)]
  | list items _ => rfl
  | _ => rfl

/-- Nothing is lost when every path is kept. -/
theorem prune_of_kept (v : Json F) (kept : ∀ path ≠ [], keep path = true) : v.prune keep = v := by
  induction v using nestedInduction generalizing keep with
  | object fields ih =>
      have each : ∀ some_ ⊆ fields, pruneFields keep some_ = some_ := by
        intro some_ inside
        induction some_ with
        | nil => rfl
        | cons field rest step =>
            obtain ⟨key, value⟩ := field
            rw [pruneFields, if_pos (kept _ (List.cons_ne_nil _ _)),
              ih _ (inside List.mem_cons_self) fun path _ => kept _ (List.cons_ne_nil _ _),
              step fun x here => inside (List.mem_cons_of_mem _ here)]
      show object _ = object _
      rw [each fields (List.Subset.refl fields)]
  | list items _ => rfl
  | _ => rfl

theorem prune_true (v : Json F) : v.prune (fun _ => true) = v :=
  prune_of_kept v fun _ _ => rfl

/-! ## Parts of parts -/

theorem valueAt_append (v : Json F) (path below : List Text) :
    v.valueAt (path ++ below) = (v.valueAt path).bind fun part => part.valueAt below := by
  induction path generalizing v with
  | nil => rfl
  | cons key path ih =>
      rw [List.cons_append, valueAt, valueAt]
      cases v.field key with
      | none => rfl
      | some inner => exact ih inner

/-- There is something on the way to a part. -/
theorem valueAt_isSome_of_prefix {v : Json F} {above : List Text} (onTheWay : above <+: path)
    (there : (v.valueAt path).isSome) : (v.valueAt above).isSome := by
  obtain ⟨below, rfl⟩ := onTheWay
  rw [valueAt_append] at there
  exact Option.isSome_of_isSome_bind there

/-- A value with one path. -/
def ofPath : List Text → Json F
  | [] => .null
  | key :: path => .object [(key, ofPath path)]

theorem ofPath_unique (path : List Text) : (ofPath path : Json F).Unique := by
  rw [unique_iff]
  induction path with
  | nil => exact fun _ member => absurd member List.not_mem_nil
  | cons key path ih =>
      rw [ofPath, forall_parts_object]
      refine ⟨List.nodup_singleton key, fun field member => ⟨trivial, ?_⟩⟩
      obtain rfl := List.mem_singleton.mp member
      exact ih

theorem valueAt_ofPath (path other : List Text) :
    ((ofPath path : Json F).valueAt other).isSome ↔ other <+: path := by
  induction other generalizing path with
  | nil => exact ⟨fun _ => List.nil_prefix, fun _ => rfl⟩
  | cons key other ih =>
      cases path with
      | nil =>
          constructor
          · intro there
            cases there
          · intro onTheWay
            exact absurd (List.prefix_nil.mp onTheWay) (List.cons_ne_nil _ _)
      | cons first path =>
          rw [List.cons_prefix_cons, ← ih path, ofPath, valueAt, field, List.lookup_cons]
          by_cases same : key = first
          · simp [same]
          · rw [beq_eq_false_iff_ne.mpr same]
            simp [same]

/-! ## Removing a part -/

/-- The value without the part at a path. -/
def removePath : Json F → List Text → Json F
  | .object fields, [last] => .object (fields.filter fun field => field.1 ≠ last)
  | .object fields, part :: next :: path =>
    .object (fields.map fun field =>
      if field.1 = part then (field.1, removePath field.2 (next :: path)) else field)
  | v, _ => v
termination_by _ path => path

theorem removePath_eq_prune (v : Json F) (path : List Text) :
    path ≠ [] → v.removePath path = v.prune (· ≠ path) := by
  intro some_
  induction path generalizing v with
  | nil => exact absurd rfl some_
  | cons part path ih =>
      cases v with
      | object fields =>
          cases path with
          | nil =>
              rw [removePath]
              show object _ = object _
              congr 1
              induction fields with
              | nil => rfl
              | cons field fields step =>
                  obtain ⟨key, value⟩ := field
                  rw [List.filter_cons, pruneFields, step]
                  by_cases here : key = part
                  · simp [here]
                  · simp [here, prune_true]
          | cons next path =>
              rw [removePath]
              show object _ = object _
              congr 1
              induction fields with
              | nil => rfl
              | cons field fields step =>
                  obtain ⟨key, value⟩ := field
                  rw [List.map_cons, pruneFields, step]
                  by_cases here : key = part
                  · have below := ih value (List.cons_ne_nil _ _)
                    simp [here, below]
                  · simp [here, prune_true]
      | _ =>
          unfold removePath prune
          cases path with
          | _ => rfl

theorem foldl_removePath (v : Json F) (paths : List (List Text)) (some_ : [] ∉ paths) :
    paths.foldl removePath v = v.prune (· ∉ paths) := by
  induction paths generalizing v with
  | nil => simpa using (prune_true v).symm
  | cons path paths ih =>
      obtain ⟨first, others⟩ := not_or.mp (mt List.mem_cons.mpr some_)
      rw [List.foldl_cons, ih _ others, removePath_eq_prune v path (Ne.symm first), prune_prune]
      simp

end ImposbroSearch.Foundation.Json
