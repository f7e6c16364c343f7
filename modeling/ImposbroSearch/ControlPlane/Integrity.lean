import ImposbroSearch.Foundation.Jsonb

/-!
# Canonical serialization of control-plane records

The texts that are hashed: the canonical state, and the material of an audit event. A
record is hashed only when it can be printed and encoded.

The details of a stored audit event are read back through `dict(…)`, which takes more than
objects: a list of pairs is a dict too, and so are an empty list and an empty string.
-/

namespace ImposbroSearch.ControlPlane

open ImposbroSearch.Foundation

/-- `ZERO_AUDIT_HASH` -/
def zeroAuditHash : Text := List.replicate 64 48

/-! ## Timestamps -/

/-- An aware datetime in UTC. -/
@[ext] structure Timestamp where
  year : ℕ
  month : ℕ
  day : ℕ
  hour : ℕ
  minute : ℕ
  second : ℕ
  microsecond : ℕ
  date : (1 ≤ year ∧ year ≤ 9999) ∧ (1 ≤ month ∧ month ≤ 12) ∧ 1 ≤ day ∧ day ≤ 31
  time : hour < 24 ∧ minute < 60 ∧ second < 60 ∧ microsecond < 1000000
  deriving DecidableEq

/-- A number with leading zeros. -/
def padded (width n : ℕ) : Text := List.replicate (width - (natText n).length) 48 ++ natText n

theorem digitsValue_padded (width n : ℕ) : digitsValue (padded width n) = n := by
  unfold padded
  rw [digitsValue_append, digitsValue_zeros, digitsValue_natText]
  simp

theorem padded_injective {width n m : ℕ} (same : padded width n = padded width m) : n = m := by
  rw [← digitsValue_padded width n, same, digitsValue_padded]

theorem padded_length {width n : ℕ} (positive : 0 < width) (small : n < 10 ^ width) :
    (padded width n).length = width := by
  have short := natText_length_le positive small
  unfold padded
  rw [List.length_append, List.length_replicate]
  omega

/-- A number of known width ends where the next text begins. -/
theorem padded_append_inj {width n m : ℕ} {rest other : Text} (positive : 0 < width)
    (first : n < 10 ^ width) (second : m < 10 ^ width)
    (same : padded width n ++ rest = padded width m ++ other) : n = m ∧ rest = other := by
  obtain ⟨numbers, rests⟩ := List.append_inj same
    ((padded_length positive first).trans (padded_length positive second).symm)
  exact ⟨padded_injective numbers, rests⟩

namespace Timestamp

/-- `timestamp_text`: `isoformat`, which leaves out a fraction that is zero. -/
def isoformat (t : Timestamp) : Text :=
  padded 4 t.year ++ 45 :: (padded 2 t.month ++ 45 :: (padded 2 t.day ++ 84 ::
    (padded 2 t.hour ++ 58 :: (padded 2 t.minute ++ 58 :: (padded 2 t.second ++
      ((if t.microsecond = 0 then [] else 46 :: padded 6 t.microsecond) ++ chars "+00:00"))))))

theorem isoformat_injective {s t : Timestamp} (same : s.isoformat = t.isoformat) : s = t := by
  obtain ⟨⟨-, year⟩, ⟨-, month⟩, -, day⟩ := s.date
  obtain ⟨⟨-, year'⟩, ⟨-, month'⟩, -, day'⟩ := t.date
  obtain ⟨hour, minute, second, microsecond⟩ := s.time
  obtain ⟨hour', minute', second', microsecond'⟩ := t.time
  unfold isoformat at same
  obtain ⟨years, same⟩ := padded_append_inj (by norm_num) (by omega) (by omega) same
  obtain ⟨months, same⟩ := padded_append_inj (by norm_num) (by omega) (by omega)
    (List.cons.inj same).2
  obtain ⟨days, same⟩ := padded_append_inj (by norm_num) (by omega) (by omega)
    (List.cons.inj same).2
  obtain ⟨hours, same⟩ := padded_append_inj (by norm_num) (by omega) (by omega)
    (List.cons.inj same).2
  obtain ⟨minutes, same⟩ := padded_append_inj (by norm_num) (by omega) (by omega)
    (List.cons.inj same).2
  obtain ⟨seconds, same⟩ := padded_append_inj (by norm_num) (by omega) (by omega)
    (List.cons.inj same).2
  have fractions : s.microsecond = t.microsecond := by
    have parts := List.append_cancel_right same
    split_ifs at parts with none none' none'
    · exact none.trans none'.symm
    · exact padded_injective (List.cons.inj parts).2
  exact Timestamp.ext years months days hours minutes seconds fractions

end Timestamp

/-! ## Objects -/

/-- Why a value is not normalized. -/
inductive NormalizeError where
  | notObject
  | notFinite
  deriving DecidableEq, Repr

section Objects

variable {F : Type}

/-- `isinstance(value, Mapping)` -/
def isObject : Json F → Bool
  | .object _ => true
  | _ => false

/-- A key of a Python dict: what can be hashed. -/
inductive DictKey (F : Type) where
  | null
  | bool (value : Bool)
  | int (value : ℤ)
  | float (value : F)
  | nan
  | infinity (negative : Bool)
  | str (text : Text)

/-- Lists and dicts cannot be hashed. -/
def DictKey.of : Json F → Option (DictKey F)
  | .null => some .null
  | .bool value => some (.bool value)
  | .int n => some (.int n)
  | .float x => some (.float x)
  | .nan => some .nan
  | .infinity negative => some (.infinity negative)
  | .str text => some (.str text)
  | .list _ => none
  | .object _ => none

/-- An item of a sequence of pairs: anything that two items can be taken from. -/
def pairOf : Json F → Option (DictKey F × Json F)
  | .list [key, value] => (DictKey.of key).map (·, value)
  | .str [key, value] => some (.str [key], .str [value])
  | .object [(key, _), (value, _)] => some (.str key, .str value)
  | _ => none

variable [PyFloat F]

/-- Numbers are one key when they are equal, whatever their types. -/
def DictKey.number : DictKey F → Option (ℤ ⊕ Decimal ⊕ Bool)
  | .bool value => some (.inl (if value then 1 else 0))
  | .int n => some (.inl n)
  | .float x =>
    match PyFloat.asInteger x with
    | some n => some (.inl n)
    | none => some (.inr (.inl (PyFloat.decimal x)))
  | .infinity negative => some (.inr (.inr negative))
  | _ => none

/-- `key == other`, of keys of one dict. -/
def DictKey.same : DictKey F → DictKey F → Bool
  | .null, .null => true
  | .str text, .str other => text = other
  | key, other => key.number.isSome && key.number = other.number

def DictKey.isText : DictKey F → Bool
  | .str _ => true
  | _ => false

/-- The dict of a row of pairs. The first key of several equal ones stays. -/
def dictOfKeys (pairs : List (DictKey F × Json F)) : List (DictKey F × Json F) :=
  pairs.foldl (fun fields pair =>
    if fields.any fun field => field.1.same pair.1 then
      fields.map fun field => if field.1.same pair.1 then (field.1, pair.2) else field
    else fields ++ [pair]) []

/-- Sorting compares the keys: texts with texts and numbers with numbers. -/
def sortable (fields : List (DictKey F × Json F)) : Bool :=
  fields.length ≤ 1 || (fields.all fun field => field.1.isText) ||
    fields.all fun field => field.1.number.isSome

/-- The encoder's text of a key. -/
def DictKey.text : DictKey F → Option Text
  | .null => some (chars "null")
  | .bool true => some (chars "true")
  | .bool false => some (chars "false")
  | .int n =>
    if (natText n.natAbs).length ≤ maxStrDigits then some (intLiteral n).text else none
  | .float x => some (floatLiteral (PyFloat.decimal x)).text
  | .nan => none
  | .infinity _ => none
  | .str text => some text

def printedField (field : DictKey F × Json F) : Option (Text × Json F) :=
  field.1.text.map (·, field.2)

/-- `normalize_json_object` -/
def normalizeJsonObject (v : JsonValue F) : Except NormalizeError (JsonValue F) :=
  if isObject v.json then
    match Json.normalize v with
    | some normalized => .ok normalized
    | none => .error .notFinite
  else .error .notObject

/-- `normalize_json_object(dict(value))` of a loaded value. -/
def normalizeDict (v : JsonValue F) : Option (JsonValue F) :=
  match v.json with
  | .object _ => Json.normalize v
  | .str [] => Json.normalize ⟨.object [], by simp [Json.Unique, Json.parts, Json.partsOfFields]⟩
  | .list items =>
    (items.mapM pairOf).bind fun pairs =>
      let fields := dictOfKeys pairs
      if sortable fields then
        (fields.mapM printedField).bind fun fields =>
          Json.normalize ⟨(Json.object fields).dicts, Json.unique_dicts _⟩
      else none
  | _ => none

variable (hash : List ℕ → Text)

/-- `sha256(text.encode("utf-8")).hexdigest()`, of a text that can be encoded. -/
def digestOf (text : Text) : Option Text := (utf8Encode text).map hash

/-- `canonical_state_digest` -/
def canonicalStateDigest (state : JsonValue F) : Option Text :=
  (Json.normalize state).bind fun state =>
    (Json.canonicalJson state.json).bind (digestOf hash)

end Objects

/-! ## Audit material -/

/-- `AuditEvent` -/
structure AuditEvent (F : Type) where
  actor : Text
  action : Text
  resourceType : Text
  resourceId : Text
  status : Text
  requestId : Text
  details : JsonValue F

/-- What is hashed of an audit event, with its details as they are given. -/
@[ext] structure AuditMaterial (F : Type) where
  eventId : Text
  sequence : ℕ
  revision : Option ℤ
  timestamp : Timestamp
  actor : Text
  action : Text
  resourceType : Text
  resourceId : Text
  status : Text
  requestId : Text
  details : Json F
  previousHash : Text

namespace AuditMaterial

variable {F : Type}

/-- `build_audit_material` -/
def json (material : AuditMaterial F) : Json F :=
  .object
    [(chars "id", .str material.eventId),
      (chars "sequence", .int material.sequence),
      (chars "revision", match material.revision with
        | some revision => .int revision
        | none => .null),
      (chars "timestamp", .str material.timestamp.isoformat),
      (chars "actor", .str material.actor),
      (chars "action", .str material.action),
      (chars "resource_type", .str material.resourceType),
      (chars "resource_id", .str material.resourceId),
      (chars "status", .str material.status),
      (chars "request_id", .str material.requestId),
      (chars "details", material.details),
      (chars "previous_hash", .str material.previousHash)]

/-- `audit_event_hash` -/
def eventHash [PyFloat F] (hash : List ℕ → Text) (material : AuditMaterial F) : Option Text :=
  (Json.canonicalJson material.json).bind (digestOf hash)

/-- The material with the keys of its details in order. -/
def sorted (material : AuditMaterial F) : AuditMaterial F :=
  { material with details := Json.sortKeys material.details }

def keys : List Text :=
  [chars "id", chars "sequence", chars "revision", chars "timestamp", chars "actor",
    chars "action", chars "resource_type", chars "resource_id", chars "status",
    chars "request_id", chars "details", chars "previous_hash"]

theorem keys_nodup : keys.Nodup := by decide

theorem unique_json {material : AuditMaterial F} (unique : material.details.Unique) :
    material.json.Unique := by
  rw [Json.unique_iff] at unique ⊢
  unfold json
  rw [Json.forall_parts_object]
  refine ⟨keys_nodup, ?_⟩
  have revision : ∀ part ∈ (match material.revision with
      | some revision => Json.int revision
      | none => Json.null : Json F).parts, part.Distinct := by
    cases material.revision with
    | none => exact fun part member => absurd member List.not_mem_nil
    | some revision => exact fun part member => List.mem_singleton.mp member ▸ trivial
  have text : ∀ text, ∀ part ∈ (Json.str (F := F) text).parts, part.Distinct :=
    fun text part member => List.mem_singleton.mp member ▸ trivial
  have int : ∀ n, ∀ part ∈ (Json.int (F := F) n).parts, part.Distinct :=
    fun n part member => List.mem_singleton.mp member ▸ trivial
  simp only [List.forall_mem_cons]
  exact ⟨⟨trivial, text _⟩, ⟨trivial, int _⟩, ⟨trivial, revision⟩, ⟨trivial, text _⟩,
    ⟨trivial, text _⟩, ⟨trivial, text _⟩, ⟨trivial, text _⟩, ⟨trivial, text _⟩, ⟨trivial, text _⟩,
    ⟨trivial, text _⟩, ⟨trivial, unique⟩, ⟨trivial, text _⟩, fun _ member => nomatch member⟩

/-- Canonical materials agree field by field. -/
theorem field_eq {first second : AuditMaterial F} (unique : first.details.Unique)
    (unique' : second.details.Unique)
    (same : Json.sortKeys first.json = Json.sortKeys second.json) {key : Text} {v w : Json F}
    (left : first.json.field key = some v) (right : second.json.field key = some w) :
    Json.sortKeys v = Json.sortKeys w :=
  Json.sortKeys_of_field (unique_json unique) (unique_json unique') same left right

theorem sorted_of_json {first second : AuditMaterial F} (unique : first.details.Unique)
    (unique' : second.details.Unique)
    (same : Json.sortKeys first.json = Json.sortKeys second.json) :
    first.sorted = second.sorted := by
  have field : ∀ (key : Text) (v w : Json F), first.json.field key = some v →
      second.json.field key = some w → Json.sortKeys v = Json.sortKeys w :=
    fun _ _ _ => field_eq unique unique' same
  have sequence := Json.int.inj (field (chars "sequence") _ _ rfl rfl)
  have timestamp := Json.str.inj (field (chars "timestamp") _ _ rfl rfl)
  have revision : first.revision = second.revision := by
    have values := field (chars "revision") _ _ rfl rfl
    cases left : first.revision with
    | none =>
        cases right : second.revision with
        | none => rfl
        | some revision => rw [left, right] at values; cases values
    | some revision =>
        cases right : second.revision with
        | none => rw [left, right] at values; cases values
        | some other =>
            rw [left, right] at values
            exact congrArg some (Json.int.inj values)
  exact AuditMaterial.ext (Json.str.inj (field (chars "id") _ _ rfl rfl))
    (Int.ofNat.inj sequence) revision (Timestamp.isoformat_injective timestamp)
    (Json.str.inj (field (chars "actor") _ _ rfl rfl))
    (Json.str.inj (field (chars "action") _ _ rfl rfl))
    (Json.str.inj (field (chars "resource_type") _ _ rfl rfl))
    (Json.str.inj (field (chars "resource_id") _ _ rfl rfl))
    (Json.str.inj (field (chars "status") _ _ rfl rfl))
    (Json.str.inj (field (chars "request_id") _ _ rfl rfl))
    (field (chars "details") _ _ rfl rfl)
    (Json.str.inj (field (chars "previous_hash") _ _ rfl rfl))

variable [PyFloat F] {hash : List ℕ → Text}

/-- **The hash of a material** determines it, up to the order of the keys in its details. -/
theorem eventHash_injective (injective : Function.Injective hash)
    {first second : AuditMaterial F} {event : Text} (unique : first.details.Unique)
    (unique' : second.details.Unique) (hashed : first.eventHash hash = some event)
    (same : second.eventHash hash = some event) : first.sorted = second.sorted := by
  obtain ⟨text, printed, digest⟩ := Option.bind_eq_some_iff.mp hashed
  obtain ⟨other, printed', digest'⟩ := Option.bind_eq_some_iff.mp same
  obtain ⟨bytes, encoded, rfl⟩ := Option.map_eq_some_iff.mp digest
  obtain ⟨bytes', encoded', hashes⟩ := Option.map_eq_some_iff.mp digest'
  obtain rfl := injective hashes
  obtain rfl := utf8Encode_injective encoded encoded'
  exact sorted_of_json unique unique' (Json.canonicalJson_injective printed printed')

omit [PyFloat F] in
theorem sortKeys_sorted {material : AuditMaterial F} (unique : material.details.Unique) :
    Json.sortKeys material.sorted.json = Json.sortKeys material.json := by
  have twice := Json.sortKeys_sortKeys unique
  unfold Json.sortKeys at twice ⊢
  unfold json sorted Json.sortKeys
  rw [Json.orderKeys_object, Json.orderKeys_object]
  simp only [List.map_cons, List.map_nil, twice]

/-- Only the order of the keys is free. -/
theorem eventHash_congr {first second : AuditMaterial F} (same : first.sorted = second.sorted)
    (unique : first.details.Unique) (unique' : second.details.Unique) :
    first.eventHash hash = second.eventHash hash := by
  have keys : Json.sortKeys first.json = Json.sortKeys second.json := by
    rw [← sortKeys_sorted unique, same, sortKeys_sorted unique']
  unfold eventHash
  rw [Json.canonicalJson_congr keys]

end AuditMaterial

end ImposbroSearch.ControlPlane
