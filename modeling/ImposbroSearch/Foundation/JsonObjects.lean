import Mathlib.Data.List.Lex
import Mathlib.Data.List.Nodup
import Mathlib.Data.List.Sort
import ImposbroSearch.Foundation.JsonRoundTrip

/-!
# JSON objects and the order of their keys

A text may give a key twice, and a dict has it once. Beyond that a dict keeps the order of
its keys, which means nothing: two values are the same up to that order when sorting their
keys, at every depth, makes them equal. The canonical text of a value is the one with its
keys sorted.
-/

namespace ImposbroSearch.Foundation

theorem map_eq_self {V : Type} {f : V → V} {items : List V} (fixed : ∀ item ∈ items, f item = item) :
    items.map f = items :=
  (List.map_congr_left fixed).trans (List.map_id items)

theorem map_values_eq_self {V : Type} {f : V → V} {fields : List (Text × V)}
    (fixed : ∀ field ∈ fields, f field.2 = field.2) :
    (fields.map fun field => (field.1, f field.2)) = fields :=
  map_eq_self fun field member => congrArg (Prod.mk field.1) (fixed field member)

/-! ## Dicts -/

section Dict

variable {V : Type}

/-- An item assignment. A key keeps its place. -/
def setItem (fields : List (Text × V)) (key : Text) (value : V) : List (Text × V) :=
  if key ∈ fields.map Prod.fst then
    fields.map fun field => if field.1 = key then (key, value) else field
  else fields ++ [(key, value)]

/-- The dict of a row of pairs. -/
def dictOf (pairs : List (Text × V)) : List (Text × V) :=
  pairs.foldl (fun fields pair => setItem fields pair.1 pair.2) []

theorem setItem_nodup {fields : List (Text × V)} (distinct : (fields.map Prod.fst).Nodup)
    (key : Text) (value : V) : ((setItem fields key value).map Prod.fst).Nodup := by
  unfold setItem
  split_ifs with present
  · have same : (fields.map fun field => if field.1 = key then (key, value) else field).map
        Prod.fst = fields.map Prod.fst := by
      rw [List.map_map]
      refine List.map_congr_left fun field _ => ?_
      show (if field.1 = key then (key, value) else field).1 = field.1
      split_ifs with here
      · exact here.symm
      · rfl
    rw [same]
    exact distinct
  · rw [List.map_append]
    refine List.nodup_append.mpr ⟨distinct, List.nodup_singleton key, ?_⟩
    intro listed member added single
    obtain rfl : added = key := List.mem_singleton.mp single
    exact fun same => present (same ▸ member)

theorem mem_of_mem_setItem {fields : List (Text × V)} {key : Text} {value : V}
    {field : Text × V} (member : field ∈ setItem fields key value) :
    field ∈ fields ∨ field = (key, value) := by
  unfold setItem at member
  split_ifs at member with present
  · obtain ⟨before, within, rfl⟩ := List.mem_map.mp member
    split_ifs
    · exact Or.inr rfl
    · exact Or.inl within
  · rcases List.mem_append.mp member with within | single
    · exact Or.inl within
    · exact Or.inr (List.mem_singleton.mp single)

theorem dictOf_append (pairs : List (Text × V)) (pair : Text × V) :
    dictOf (pairs ++ [pair]) = setItem (dictOf pairs) pair.1 pair.2 := by
  unfold dictOf
  rw [List.foldl_append]
  rfl

theorem dictOf_nodup (pairs : List (Text × V)) : ((dictOf pairs).map Prod.fst).Nodup := by
  induction pairs using List.reverseRecOn with
  | nil => exact List.nodup_nil
  | append_singleton pairs pair ih =>
      rw [dictOf_append]
      exact setItem_nodup ih pair.1 pair.2

theorem mem_of_mem_dictOf {pairs : List (Text × V)} {field : Text × V}
    (member : field ∈ dictOf pairs) : field ∈ pairs := by
  induction pairs using List.reverseRecOn with
  | nil => exact member
  | append_singleton pairs pair ih =>
      rw [dictOf_append] at member
      rcases mem_of_mem_setItem member with before | rfl
      · exact List.mem_append_left _ (ih before)
      · exact List.mem_append_right _ (List.mem_singleton.mpr rfl)

theorem dictOf_of_nodup {pairs : List (Text × V)} (distinct : (pairs.map Prod.fst).Nodup) :
    dictOf pairs = pairs := by
  induction pairs using List.reverseRecOn with
  | nil => rfl
  | append_singleton pairs pair ih =>
      rw [List.map_append, List.nodup_append] at distinct
      obtain ⟨before, -, apart⟩ := distinct
      have fresh : pair.1 ∉ pairs.map Prod.fst :=
        fun member => apart _ member _ (List.mem_singleton.mpr rfl) rfl
      rw [dictOf_append, ih before]
      unfold setItem
      rw [if_neg fresh]

/-- A key with one value only. -/
theorem lookup_eq_some_iff_mem {fields : List (Text × V)}
    (distinct : (fields.map Prod.fst).Nodup) {key : Text} {value : V} :
    fields.lookup key = some value ↔ (key, value) ∈ fields := by
  induction fields with
  | nil => simp
  | cons field fields ih =>
      obtain ⟨fresh, others⟩ := List.nodup_cons.mp distinct
      rw [List.lookup_cons, List.mem_cons]
      by_cases here : key = field.1
      · subst here
        have absent : (field.1, value) ∉ fields :=
          fun member => fresh (List.mem_map.mpr ⟨_, member, rfl⟩)
        simp [absent, Prod.ext_iff, eq_comm]
      · have apart : (key, value) ≠ field := fun same => here (congrArg Prod.fst same)
        rw [beq_eq_false_iff_ne.mpr here, or_iff_right apart]
        exact ih others

/-- Fields are found in any order. -/
theorem lookup_perm {fields other : List (Text × V)} (same : fields.Perm other)
    (distinct : (fields.map Prod.fst).Nodup) (key : Text) :
    fields.lookup key = other.lookup key := by
  ext value
  rw [lookup_eq_some_iff_mem distinct,
    lookup_eq_some_iff_mem ((same.map Prod.fst).nodup distinct), same.mem_iff]

theorem lookup_map {W : Type} (f : V → W) (fields : List (Text × V)) (key : Text) :
    (fields.map fun field => (field.1, f field.2)).lookup key = (fields.lookup key).map f := by
  induction fields with
  | nil => rfl
  | cons field fields ih =>
      rw [List.map_cons, List.lookup_cons, List.lookup_cons, ih]
      split
      · rfl
      · rfl

end Dict

/-- The keys of an object are distinct. -/
def JsonPart.Distinct {F : Type} : JsonPart F → Prop
  | .keys listed => listed.Nodup
  | _ => True

/-- The encoder can print the part when it takes no constants. -/
def JsonPart.Dumpable {F : Type} : JsonPart F → Prop
  | .int n => (natText n.natAbs).length ≤ maxStrDigits
  | .constant => False
  | _ => True

instance {F : Type} : (part : JsonPart F) → Decidable part.Dumpable
  | .int n => inferInstanceAs (Decidable ((natText n.natAbs).length ≤ maxStrDigits))
  | .float _ => isTrue trivial
  | .constant => isFalse id
  | .text _ => isTrue trivial
  | .keys _ => isTrue trivial

/-- A value in memory: its objects are dicts. -/
@[ext] structure JsonValue (F : Type) where
  json : Json F
  unique : json.Unique

namespace Json

variable {F : Type}

/-- Induction on the nesting of a value. -/
@[elab_as_elim] theorem nestedInduction {P : Json F → Prop} (null : P .null)
    (bool : ∀ value, P (.bool value)) (int : ∀ n, P (.int n)) (float : ∀ x, P (.float x))
    (nan : P .nan) (infinity : ∀ negative, P (.infinity negative)) (str : ∀ text, P (.str text))
    (list : ∀ items, (∀ item ∈ items, P item) → P (.list items))
    (object : ∀ fields, (∀ field ∈ fields, P field.2) → P (.object fields)) (v : Json F) : P v :=
  @Json.rec F P (fun items => ∀ item ∈ items, P item) (fun fields => ∀ field ∈ fields, P field.2)
    (fun field => P field.2) null bool int float nan infinity str (fun items => list items) (fun fields => object fields)
    (fun _ member => absurd member List.not_mem_nil)
    (fun _ _ first others _ member => by
      rcases List.mem_cons.mp member with rfl | after
      · exact first
      · exact others _ after)
    (fun _ member => absurd member List.not_mem_nil)
    (fun _ _ first others _ member => by
      rcases List.mem_cons.mp member with rfl | after
      · exact first
      · exact others _ after)
    (fun _ _ value => value) v

/-! ## The parts of nested values -/

theorem mem_partsOfItems {items : List (Json F)} {part : JsonPart F} :
    part ∈ partsOfItems items ↔ ∃ item ∈ items, part ∈ item.parts := by
  induction items with
  | nil => simp [partsOfItems]
  | cons item items ih => simp [partsOfItems, ih]

theorem mem_partsOfFields {fields : List (Text × Json F)} {part : JsonPart F} :
    part ∈ partsOfFields fields ↔
      ∃ field ∈ fields, part = .text field.1 ∨ part ∈ field.2.parts := by
  induction fields with
  | nil => simp [partsOfFields]
  | cons field fields ih =>
      obtain ⟨key, value⟩ := field
      simp [partsOfFields, ih, or_assoc]

theorem mem_parts_list {items : List (Json F)} {part : JsonPart F} :
    part ∈ (list items).parts ↔ ∃ item ∈ items, part ∈ item.parts := by
  rw [parts, mem_partsOfItems]

theorem mem_parts_object {fields : List (Text × Json F)} {part : JsonPart F} :
    part ∈ (object fields).parts ↔ part = .keys (fields.map Prod.fst) ∨
      ∃ field ∈ fields, part = .text field.1 ∨ part ∈ field.2.parts := by
  rw [parts, List.mem_cons, mem_partsOfFields]

theorem forall_parts_list {P : JsonPart F → Prop} {items : List (Json F)} :
    (∀ part ∈ (list items).parts, P part) ↔ ∀ item ∈ items, ∀ part ∈ item.parts, P part := by
  simp only [mem_parts_list, forall_exists_index, and_imp]
  exact ⟨fun all item member part inside => all part item member inside,
    fun all part item member inside => all item member part inside⟩

theorem forall_parts_object {P : JsonPart F → Prop} {fields : List (Text × Json F)} :
    (∀ part ∈ (object fields).parts, P part) ↔ P (.keys (fields.map Prod.fst)) ∧
      ∀ field ∈ fields, P (.text field.1) ∧ ∀ part ∈ field.2.parts, P part := by
  constructor
  · intro all
    refine ⟨all _ (mem_parts_object.mpr (Or.inl rfl)), fun field member => ⟨?_, ?_⟩⟩
    · exact all _ (mem_parts_object.mpr (Or.inr ⟨field, member, Or.inl rfl⟩))
    · exact fun part inside =>
        all part (mem_parts_object.mpr (Or.inr ⟨field, member, Or.inr inside⟩))
  · rintro ⟨listed, inside⟩ part member
    rcases mem_parts_object.mp member with rfl | ⟨field, within, rfl | deeper⟩
    · exact listed
    · exact (inside field within).1
    · exact (inside field within).2 part deeper

theorem Unique.of_item {items : List (Json F)} (unique : (list items).Unique) {item : Json F}
    (member : item ∈ items) : item.Unique :=
  fun keys part => unique keys (mem_parts_list.mpr ⟨item, member, part⟩)

theorem Unique.of_field {fields : List (Text × Json F)} (unique : (object fields).Unique)
    {field : Text × Json F} (member : field ∈ fields) : field.2.Unique :=
  fun keys part => unique keys (mem_parts_object.mpr (Or.inr ⟨field, member, Or.inr part⟩))

theorem Unique.nodup {fields : List (Text × Json F)} (unique : (object fields).Unique) :
    (fields.map Prod.fst).Nodup :=
  unique _ (mem_parts_object.mpr (Or.inl rfl))

/-! ## Loading -/

mutual

/-- The objects of a text as dicts. -/
def dicts : Json F → Json F
  | .list items => .list (dictsOfItems items)
  | .object fields => .object (dictOf (dictsOfFields fields))
  | .null => .null
  | .bool value => .bool value
  | .int n => .int n
  | .float x => .float x
  | .nan => .nan
  | .infinity negative => .infinity negative
  | .str text => .str text

def dictsOfItems : List (Json F) → List (Json F)
  | [] => []
  | item :: items => dicts item :: dictsOfItems items

def dictsOfFields : List (Text × Json F) → List (Text × Json F)
  | [] => []
  | (key, value) :: fields => (key, dicts value) :: dictsOfFields fields

end

theorem dictsOfItems_eq (items : List (Json F)) : dictsOfItems items = items.map dicts := by
  induction items with
  | nil => rfl
  | cons item items ih => rw [dictsOfItems, ih, List.map_cons]

theorem dictsOfFields_eq (fields : List (Text × Json F)) :
    dictsOfFields fields = fields.map fun field => (field.1, dicts field.2) := by
  induction fields with
  | nil => rfl
  | cons field fields ih =>
      obtain ⟨key, value⟩ := field
      rw [dictsOfFields, ih, List.map_cons]

/-- A value whose objects are dicts already. -/
theorem dicts_of_unique {v : Json F} (unique : v.Unique) : v.dicts = v := by
  induction v using nestedInduction with
  | list items ih =>
      rw [dicts, dictsOfItems_eq,
        map_eq_self fun item member => ih item member (unique.of_item member)]
  | object fields ih =>
      rw [dicts, dictsOfFields_eq,
        map_values_eq_self fun field member => ih field member (unique.of_field member),
        dictOf_of_nodup unique.nodup]
  | _ => rfl

theorem unique_iff {v : Json F} : v.Unique ↔ ∀ part ∈ v.parts, part.Distinct := by
  constructor
  · intro unique part member
    cases part with
    | keys keys => exact unique keys member
    | _ => trivial
  · exact fun distinct keys member => distinct (.keys keys) member

instance : (part : JsonPart F) → Decidable part.Distinct
  | .keys keys => inferInstanceAs (Decidable keys.Nodup)
  | .int _ => isTrue trivial
  | .float _ => isTrue trivial
  | .constant => isTrue trivial
  | .text _ => isTrue trivial

instance (v : Json F) : Decidable v.Unique :=
  decidable_of_iff (∀ part ∈ v.parts, part.Distinct) unique_iff.symm

theorem unique_dicts (v : Json F) : v.dicts.Unique := by
  rw [unique_iff]
  induction v using nestedInduction with
  | list items ih =>
      rw [dicts, dictsOfItems_eq, forall_parts_list, List.forall_mem_map]
      exact ih
  | object fields ih =>
      rw [dicts, dictsOfFields_eq, forall_parts_object]
      refine ⟨dictOf_nodup _, fun field member => ⟨trivial, ?_⟩⟩
      obtain ⟨source, listed, rfl⟩ := List.mem_map.mp (mem_of_mem_dictOf member)
      exact ih source listed
  | _ => simp [dicts, parts, JsonPart.Distinct]

/-- A value as Python holds it: an object is a dict. -/
def held (v : Json F) : JsonValue F where
  json := v.dicts
  unique := v.unique_dicts

/-- `json.loads` -/
def loads [PyFloat F] (text : Text) : Except JsonError (JsonValue F) :=
  (read true text).map fun v => ⟨v.dicts, unique_dicts v⟩

/-- A value that `or` passes over. -/
def isFalsy [PyFloat F] : Json F → Bool
  | .null => true
  | .bool value => !value
  | .int n => n = 0
  | .float x => (PyFloat.decimal x).digits = 0
  | .nan => false
  | .infinity _ => false
  | .str text => text.isEmpty
  | .list items => items.isEmpty
  | .object fields => fields.isEmpty

/-! ## The order of the keys -/

section Order

variable (le : Text → Text → Prop) [DecidableRel le]

/-- The fields in the order of their keys. -/
def orderFields (fields : List (Text × Json F)) : List (Text × Json F) :=
  fields.insertionSort fun first second => le first.1 second.1

mutual

/-- The fields of every object in the order of their keys. -/
def orderKeys : Json F → Json F
  | .list items => .list (orderKeysOfItems items)
  | .object fields => .object (orderFields le (orderKeysOfFields fields))
  | .null => .null
  | .bool value => .bool value
  | .int n => .int n
  | .float x => .float x
  | .nan => .nan
  | .infinity negative => .infinity negative
  | .str text => .str text

def orderKeysOfItems : List (Json F) → List (Json F)
  | [] => []
  | item :: items => orderKeys item :: orderKeysOfItems items

def orderKeysOfFields : List (Text × Json F) → List (Text × Json F)
  | [] => []
  | (key, value) :: fields => (key, orderKeys value) :: orderKeysOfFields fields

end

variable {le}

theorem orderKeysOfItems_eq (items : List (Json F)) :
    orderKeysOfItems le items = items.map (orderKeys le) := by
  induction items with
  | nil => rfl
  | cons item items ih => rw [orderKeysOfItems, ih, List.map_cons]

theorem orderKeysOfFields_eq (fields : List (Text × Json F)) :
    orderKeysOfFields le fields = fields.map fun field => (field.1, orderKeys le field.2) := by
  induction fields with
  | nil => rfl
  | cons field fields ih =>
      obtain ⟨key, value⟩ := field
      rw [orderKeysOfFields, ih, List.map_cons]

theorem orderFields_perm (fields : List (Text × Json F)) :
    (orderFields le fields).Perm fields :=
  List.perm_insertionSort _ fields

theorem orderKeys_object (fields : List (Text × Json F)) : orderKeys le (.object fields) =
    .object (orderFields le (fields.map fun field => (field.1, orderKeys le field.2))) := by
  rw [orderKeys, orderKeysOfFields_eq]

theorem orderKeys_list (items : List (Json F)) :
    orderKeys le (.list items) = .list (items.map (orderKeys le)) := by
  rw [orderKeys, orderKeysOfItems_eq]

theorem mem_orderKeys_fields {fields : List (Text × Json F)} {field : Text × Json F} :
    field ∈ orderFields le (fields.map fun field => (field.1, orderKeys le field.2)) ↔
      ∃ other ∈ fields, (other.1, orderKeys le other.2) = field := by
  rw [(orderFields_perm _).mem_iff, List.mem_map]

/-- The keys of an ordered object. -/
theorem keys_orderKeys (fields : List (Text × Json F)) :
    ((orderFields le (fields.map fun field => (field.1, orderKeys le field.2))).map Prod.fst).Perm
      (fields.map Prod.fst) := by
  refine ((orderFields_perm _).map Prod.fst).trans (.of_eq ?_)
  rw [List.map_map]
  rfl

/-- **Ordering the keys keeps the parts**, up to the order of the keys. -/
theorem forall_parts_orderKeys {P : JsonPart F → Prop}
    (respects : ∀ {keys other : List Text}, keys.Perm other → P (.keys keys) → P (.keys other))
    {v : Json F} : (∀ part ∈ (orderKeys le v).parts, P part) ↔ ∀ part ∈ v.parts, P part := by
  induction v using nestedInduction with
  | list items ih =>
      rw [orderKeys_list, forall_parts_list, forall_parts_list, List.forall_mem_map]
      exact forall₂_congr ih
  | object fields ih =>
      rw [orderKeys_object, forall_parts_object, forall_parts_object]
      refine and_congr
        ⟨respects (keys_orderKeys fields), respects (keys_orderKeys fields).symm⟩ ?_
      simp only [(orderFields_perm _).mem_iff, List.forall_mem_map]
      exact forall₂_congr fun field member => and_congr_right fun _ => ih field member
  | _ => rfl

theorem unique_orderKeys {v : Json F} : (orderKeys le v).Unique ↔ v.Unique := by
  rw [unique_iff, unique_iff]
  exact forall_parts_orderKeys fun same distinct => same.nodup distinct

variable {other : Text → Text → Prop} [DecidableRel other]

/-- **The order of the keys is lost** when they are ordered anew. -/
theorem orderKeys_orderKeys [Std.Total le] [IsTrans Text le] [Std.Antisymm le] {v : Json F}
    (unique : v.Unique) : orderKeys le (orderKeys other v) = orderKeys le v := by
  have total : Std.Total fun first second : Text × Json F => le first.1 second.1 :=
    ⟨fun first second => total_of le first.1 second.1⟩
  have trans : IsTrans (Text × Json F) fun first second => le first.1 second.1 :=
    ⟨fun _ _ _ below above => trans_of le below above⟩
  induction v using nestedInduction with
  | list items ih =>
      rw [orderKeys_list, orderKeys_list, orderKeys_list, List.map_map]
      refine congrArg list (List.map_congr_left fun item member => ?_)
      exact ih item member (unique.of_item member)
  | object fields ih =>
      rw [orderKeys_object, orderKeys_object, orderKeys_object]
      -- two ordered rows of the same fields, where no two fields have one key
      refine congrArg object (List.Perm.eq_of_pairwise ?_ (List.pairwise_insertionSort _ _)
        (List.pairwise_insertionSort _ _) ?_)
      · intro first second listed member below above
        have same : first.1 = second.1 := antisymm_of le below above
        obtain ⟨inner, within, rfl⟩ := mem_orderKeys_fields.mp listed
        obtain ⟨field, source, rfl⟩ := mem_orderKeys_fields.mp within
        obtain ⟨twin, target, rfl⟩ := mem_orderKeys_fields.mp member
        obtain rfl := List.inj_on_of_nodup_map unique.nodup source target same
        exact Prod.ext rfl (ih field source (unique.of_field source))
      · refine (orderFields_perm _).trans (((orderFields_perm _).map _).trans
          (.trans (.of_eq ?_) (orderFields_perm _).symm))
        rw [List.map_map]
        refine List.map_congr_left fun field member => ?_
        exact Prod.ext rfl (ih field member (unique.of_field member))
  | _ => rfl

end Order

/-! ## Canonical texts -/

/-- `json.dumps` with sorted keys, as it prints what it can print. -/
def sortKeys : Json F → Json F := orderKeys (· ≤ ·)

/-- The encoder takes every part. -/
def Dumpable (v : Json F) : Prop := ∀ part ∈ v.parts, part.Dumpable

instance (v : Json F) : Decidable v.Dumpable :=
  inferInstanceAs (Decidable (∀ part ∈ v.parts, part.Dumpable))

/-- No blanks, and no escapes beyond ASCII. -/
def compact : JsonStyle := ⟨false, false⟩

/-- The value of a key. -/
def field (v : Json F) (key : Text) : Option (Json F) :=
  match v with
  | .object fields => fields.lookup key
  | _ => none

section Canonical

variable [PyFloat F]

/-- `json.dumps` with sorted keys, compact, without escapes and constants. -/
def canonicalJson (v : Json F) : Option Text :=
  if v.Dumpable then some (print compact (sortKeys v)) else none

/-- A value that was printed canonically and read back. -/
def normalize (v : JsonValue F) : Option (JsonValue F) :=
  (canonicalJson v.json).bind fun text => (loads text).toOption

end Canonical

theorem dumpable_sortKeys {v : Json F} : (sortKeys v).Dumpable ↔ v.Dumpable :=
  forall_parts_orderKeys fun _ _ => trivial

theorem unique_sortKeys {v : Json F} : (sortKeys v).Unique ↔ v.Unique := unique_orderKeys

theorem sortKeys_orderKeys {le : Text → Text → Prop} [DecidableRel le] {v : Json F}
    (unique : v.Unique) : sortKeys (orderKeys le v) = sortKeys v :=
  orderKeys_orderKeys unique

theorem sortKeys_sortKeys {v : Json F} (unique : v.Unique) : sortKeys (sortKeys v) = sortKeys v :=
  orderKeys_orderKeys unique

theorem field_sortKeys {v : Json F} (unique : v.Unique) (key : Text) :
    (sortKeys v).field key = (v.field key).map sortKeys := by
  cases v with
  | object fields =>
      unfold sortKeys
      rw [orderKeys_object]
      show List.lookup key _ = (fields.lookup key).map _
      rw [lookup_perm (orderFields_perm _), lookup_map]
      exact (keys_orderKeys fields).symm.nodup unique.nodup
  | _ => rfl

/-- Values with the same canonical text agree field by field. -/
theorem sortKeys_of_field {v w : Json F} (unique : v.Unique) (unique' : w.Unique)
    (same : sortKeys v = sortKeys w) {key : Text} {x y : Json F} (left : v.field key = some x)
    (right : w.field key = some y) : sortKeys x = sortKeys y := by
  have fields : (v.field key).map sortKeys = (w.field key).map sortKeys := by
    rw [← field_sortKeys unique, same, field_sortKeys unique']
  rw [left, right] at fields
  exact Option.some.inj fields

theorem Dumpable.readable {v : Json F} (dumpable : v.Dumpable) : v.Readable compact true := by
  intro part member
  have prints := dumpable part member
  cases part with
  | int n => exact prints
  | float x => trivial
  | constant => rfl
  | text characters => exact fun ascii => Bool.noConfusion ascii
  | keys listed => trivial

section Canonical

variable [PyFloat F]

theorem canonicalJson_eq {v : Json F} (dumpable : v.Dumpable) :
    canonicalJson v = some (print compact (sortKeys v)) := if_pos dumpable

theorem dumpable_of_canonicalJson {v : Json F} {text : Text}
    (printed : canonicalJson v = some text) : v.Dumpable := by
  by_contra unprintable
  unfold canonicalJson at printed
  rw [if_neg unprintable] at printed
  cases printed

/-- **A canonical text determines** its value, up to the order of the keys. -/
theorem canonicalJson_injective {v w : Json F} {text : Text}
    (printed : canonicalJson v = some text) (same : canonicalJson w = some text) :
    sortKeys v = sortKeys w := by
  have first := dumpable_of_canonicalJson printed
  have second := dumpable_of_canonicalJson same
  rw [canonicalJson_eq first] at printed
  rw [canonicalJson_eq second, ← printed] at same
  exact (print_injective (dumpable_sortKeys.mpr second).readable
    (dumpable_sortKeys.mpr first).readable (Option.some.inj same)).symm

/-- Only what is printed matters. -/
theorem canonicalJson_congr {v w : Json F} (same : sortKeys v = sortKeys w) :
    canonicalJson v = canonicalJson w := by
  have dumpable : v.Dumpable ↔ w.Dumpable := by
    rw [← dumpable_sortKeys, same, dumpable_sortKeys]
  unfold canonicalJson
  simp only [dumpable, same]

/-- **Normalizing** sorts the keys and does nothing else. -/
theorem normalize_eq {v : JsonValue F} (dumpable : v.json.Dumpable) :
    normalize v = some ⟨sortKeys v.json, unique_sortKeys.mpr v.unique⟩ := by
  have unique := unique_sortKeys.mpr v.unique
  unfold normalize
  rw [canonicalJson_eq dumpable, Option.bind_some]
  unfold loads
  rw [read_print (dumpable_sortKeys.mpr dumpable).readable]
  simp only [Except.map, Except.toOption, dicts_of_unique unique]

theorem normalize_eq_none {v : JsonValue F} (unprintable : ¬v.json.Dumpable) :
    normalize v = none := by
  unfold normalize canonicalJson
  rw [if_neg unprintable]
  rfl

end Canonical

end Json

end ImposbroSearch.Foundation
