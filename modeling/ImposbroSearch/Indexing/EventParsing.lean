import ImposbroSearch.Foundation.Texts
import ImposbroSearch.Indexing.Datetimes
import ImposbroSearch.Indexing.Envelope

/-!
# The strict parser of indexing events

A Kafka value is a JSON object, and an event is what the parser accepts of it. Each text
of an event has passed its check, and the types of the fields say which: an identifier
matches its pattern, a safe text is printable, a document can be printed as JSON. What
the characters of a document are is not checked.
-/

namespace ImposbroSearch.Indexing.EventEnvelope

open ImposbroSearch.Foundation

/-- What `str.isprintable` says of a character: it refuses whatever is no character, and
surrogates. -/
structure PrintableTable where
  printable : ℕ → Bool
  scalar : ∀ c, printable c = true → IsScalar c

/-! ## Patterns -/

/-- A pattern of one class of characters, with bounds for its length. -/
structure NamePattern where
  allowed : ℕ → Bool
  shortest : ℕ
  longest : ℕ

def NamePattern.fullmatch (pattern : NamePattern) (text : Text) : Bool :=
  pattern.shortest ≤ text.length && text.length ≤ pattern.longest && text.all pattern.allowed

/-- `[A-Za-z0-9]` -/
def isAlphanumeric (c : ℕ) : Bool := isDigit c || 65 ≤ c && c ≤ 90 || 97 ≤ c && c ≤ 122

/-- `NAME_PATTERN` -/
def namePattern : NamePattern := ⟨fun c => isAlphanumeric c || c = 95 || c = 45, 1, 128⟩

/-- `DOCUMENT_ID_PATTERN` -/
def documentIdPattern : NamePattern :=
  ⟨fun c => isAlphanumeric c || c = 95 || c = 46 || c = 45, 1, 256⟩

/-- `EVENT_ID_PATTERN` -/
def eventIdPattern : NamePattern :=
  ⟨fun c => isAlphanumeric c || c = 95 || c = 46 || c = 58 || c = 45, 8, 128⟩

/-- `[A-Za-z_]` -/
def isFieldStart (c : ℕ) : Bool := 65 ≤ c && c ≤ 90 || 97 ≤ c && c ≤ 122 || c = 95

/-- `[A-Za-z0-9_.]` -/
def isFieldChar (c : ℕ) : Bool := isAlphanumeric c || c = 95 || c = 46

/-- One tenant, or a list of tenants in brackets. -/
def isTenantValues (values : Text) : Bool :=
  namePattern.fullmatch values ||
    match values with
    | 91 :: rest => rest.getLast? = some 93 && (rest.dropLast.splitOn 44).all namePattern.fullmatch
    | _ => false

/-- `TENANT_DELETE_FILTER_PATTERN`: the document id of a filter that matches. -/
def tenantFilterDocumentId (text : Text) : Option Text :=
  (textBehind (chars "(id:=") text).bind fun rest =>
    let documentId := rest.takeWhile documentIdPattern.allowed
    if documentIdPattern.fullmatch documentId then
      (textBehind (chars ") && ") (rest.dropWhile documentIdPattern.allowed)).bind fun rest =>
        match rest with
        | [] => none
        | first :: rest =>
          if isFieldStart first then
            (textBehind (chars ":=") (rest.dropWhile isFieldChar)).bind fun values =>
              if isTenantValues values then some documentId else none
          else none
    else none

def isHex (c : ℕ) : Bool := isDigit c || 97 ≤ c && c ≤ 102

/-- `TRACEPARENT_PATTERN`, and the values that are refused although they match. -/
def isTraceparent (text : Text) : Bool :=
  match text.splitOn 45 with
  | [version, traceId, parentId, flags] =>
    [version, traceId, parentId, flags].all (·.all isHex) &&
      [version, traceId, parentId, flags].map List.length = [2, 32, 16, 2] &&
      version ≠ chars "ff" && traceId ≠ List.replicate 32 48 && parentId ≠ List.replicate 16 48
  | _ => false

/-- A text where a zero of the template stands for a digit. -/
def matchesTemplate : Text → Text → Bool
  | [], [] => true
  | d :: template, c :: text =>
    (if d = 48 then isDigit c else c = d) && matchesTemplate template text
  | _, _ => false

def isZone (text : Text) : Bool :=
  text = [90] || matchesTemplate (chars "+00:00") text || matchesTemplate (chars "-00:00") text

/-- `RFC3339_PATTERN`. Digits beyond ASCII match it too, and are refused right after it. -/
def isRfc3339 (text : Text) : Bool :=
  matchesTemplate (chars "0000-00-00T00:00:00") (text.take 19) &&
    (isZone (text.drop 19) ||
      match text.drop 19 with
      | 46 :: fraction =>
        let digits := fraction.takeWhile isDigit
        1 ≤ digits.length && digits.length ≤ 6 && isZone (fraction.dropWhile isDigit)
      | _ => false)

/-! ## Events -/

/-- A text that matches a pattern. -/
@[ext] structure Identifier (pattern : NamePattern) where
  text : Text
  matched : pattern.fullmatch text = true

instance (pattern : NamePattern) : DecidableEq (Identifier pattern) := fun first second =>
  decidable_of_iff (first.text = second.text) ⟨Identifier.ext, congrArg Identifier.text⟩

/-- A printable text without blanks around it. -/
@[ext] structure SafeText (table : PrintableTable) (maximum : ℕ) where
  text : Text
  stripped : stripText text = text
  length_pos : text ≠ []
  length_le : text.length ≤ maximum
  printable : ∀ c ∈ text, table.printable c = true

/-- `MAX_INT64` -/
def maxInt64 : ℤ := 2 ^ 63 - 1

@[ext] structure PositiveInt where
  value : ℤ
  bounds : 1 ≤ value ∧ value ≤ maxInt64

/-- An object that JSON can print. -/
@[ext] structure Document (F : Type) where
  value : JsonValue F
  isObject : ControlPlane.isObject value.json = true
  dumpable : value.json.Dumpable

variable (table : PrintableTable) (F : Type)

/-- `EventIdentity` -/
@[ext] structure EventIdentity where
  tenantId : SafeText table 256
  collection : Identifier namePattern
  documentId : Identifier documentIdPattern

/-- `TraceMetadata`, where a missing text is empty. -/
structure TraceMetadata where
  requestId : Option (SafeText table 1024)
  correlationId : Option (SafeText table 1024)
  traceparent : Option (SafeText table 55)
  tracestate : Option (SafeText table 1024)

/-- `IndexingEventV2` -/
structure IndexingEventV2 where
  eventId : Identifier eventIdPattern
  identity : EventIdentity table
  documentVersion : PositiveInt
  sequence : PositiveInt
  operation : Operation
  routingRevision : PositiveInt
  rolloutId : Option (Identifier namePattern)
  targetClusters : List (Identifier namePattern)
  occurredAt : Datetime
  trace : TraceMetadata table
  document : Option (Document F)
  deleteFilter : Option (SafeText table 1024)
  targets_nodup : targetClusters.Nodup

/-- `LegacyIndexingEvent` -/
structure LegacyIndexingEvent where
  operation : Operation
  collection : Identifier namePattern
  documentId : Identifier documentIdPattern
  targetCluster : Option (Identifier namePattern)
  document : Option (List (Text × Json F))
  requestId : SafeText table 256
  deleteFilter : Option (SafeText table 4096)

inductive ParsedIndexingEvent where
  | v2 (event : IndexingEventV2 table F)
  | legacy (event : LegacyIndexingEvent table F)

/-- `EventEnvelopeError` with its message, or with the value its message shows; and the
error of a time beyond the calendar. -/
inductive EventEnvelopeError where
  | invalid (message : Text)
  | unsupportedVersion (version : Json F)
  | unsupportedAction (action : Json F)
  | overflow

variable {table F}

/-! ## Fields -/

section Fields

variable {α : Type}

def refuse (message : String) : Except (EventEnvelopeError F) α := .error (.invalid (chars message))

/-- `payload.get(key)` -/
def get (fields : List (Text × Json F)) (key : String) : Json F :=
  (fields.lookup (chars key)).getD .null

/-- `value is None` -/
def isNone : Json F → Bool
  | .null => true
  | _ => false

/-- The keys that are not allowed, in order. -/
def unknownKeys (allowed : List String) (fields : List (Text × Json F)) : List Text :=
  ((fields.map Prod.fst).filter fun key => !(allowed.map chars).contains key).insertionSort (· ≤ ·)

/-- The check for unknown keys. -/
def refuseUnknown (what : String) (allowed : List String) (fields : List (Text × Json F)) :
    Except (EventEnvelopeError F) Unit :=
  match unknownKeys allowed fields with
  | [] => .ok ()
  | unknown =>
    .error (.invalid (chars ("Unknown " ++ what ++ " fields: ") ++
      (chars ", ").intercalate unknown))

/-- `_identifier` -/
def identifier (value : Json F) (fieldName : String) (pattern : NamePattern) :
    Except (EventEnvelopeError F) (Identifier pattern) :=
  match value with
  | .str text =>
    if stripText text ≠ text then
      refuse (fieldName ++ " must not contain leading or trailing whitespace")
    else if matched : pattern.fullmatch text = true then .ok ⟨text, matched⟩
    else refuse (fieldName ++ " has an invalid format")
  | _ => refuse (fieldName ++ " must be a string")

/-- `_safe_text` -/
def safeText (table : PrintableTable) (value : Json F) (fieldName : String) (maximum : ℕ) :
    Except (EventEnvelopeError F) (SafeText table maximum) :=
  match value with
  | .str text =>
    if stripped : stripText text = text then
      if sized : text ≠ [] ∧ text.length ≤ maximum then
        if printable : ∀ c ∈ text, table.printable c = true then
          .ok ⟨text, stripped, sized.1, sized.2, printable⟩
        else refuse (fieldName ++ " must not contain control characters")
      else
        refuse (fieldName ++ " must contain between 1 and " ++ toString maximum ++ " characters")
    else refuse (fieldName ++ " must not contain leading or trailing whitespace")
  | _ => refuse (fieldName ++ " must be a string")

/-- `value in (None, "")` -/
def isAbsent : Json F → Bool
  | .null => true
  | .str [] => true
  | _ => false

/-- `_safe_optional_text` -/
def safeOptionalText (table : PrintableTable) (value : Json F) (fieldName : String) :
    Except (EventEnvelopeError F) (Option (SafeText table 1024)) :=
  if isAbsent value then .ok none else (safeText table value fieldName 1024).map some

/-- `_traceparent` -/
def traceparent (table : PrintableTable) (value : Json F) :
    Except (EventEnvelopeError F) (Option (SafeText table 55)) :=
  if isAbsent value then .ok none
  else do
    let normalized ← safeText table value "trace.traceparent" 55
    if isTraceparent normalized.text then .ok (some normalized)
    else refuse "trace.traceparent must be a valid W3C traceparent"

/-- `_positive_int` -/
def positiveInt (value : Json F) (fieldName : String) :
    Except (EventEnvelopeError F) PositiveInt :=
  match value with
  | .int n =>
    if low : 1 ≤ n then
      if high : n ≤ maxInt64 then .ok ⟨n, low, high⟩
      else refuse (fieldName ++ " must not exceed " ++ toString maxInt64)
    else refuse (fieldName ++ " must be an integer greater than zero")
  | _ => refuse (fieldName ++ " must be an integer greater than zero")

/-- `value.replace("Z", "+00:00")` -/
def replaceZ (text : Text) : Text := text.flatMap fun c => if c = 90 then chars "+00:00" else [c]

/-- `_timestamp` -/
def timestamp (otherFormats : Text → Option Moment) (value : Json F) :
    Except (EventEnvelopeError F) Datetime :=
  match value with
  | .str text =>
    if isRfc3339 text then
      match fromisoformat otherFormats (replaceZ text) with
      | none => refuse "occurred_at must be an RFC3339 timestamp"
      | some ⟨_, none⟩ => refuse "occurred_at must include a timezone"
      | some ⟨wall, some offset⟩ =>
        match toUtc wall offset with
        | none => .error .overflow
        | some parsed => .ok parsed
    else refuse "occurred_at must be an RFC3339 timestamp"
  | _ => refuse "occurred_at must be an RFC3339 timestamp"

/-- `_tenant_delete_filter` -/
def tenantDeleteFilter (table : PrintableTable) (value : Json F) (documentId : Text) :
    Except (EventEnvelopeError F) (SafeText table 1024) := do
  let normalized ← safeText table value "delete_filter" 1024
  if tenantFilterDocumentId normalized.text = some documentId then .ok normalized
  else refuse "delete_filter must be an exact document-id and tenant conjunction"

/-- `_parse_identity` -/
def parseIdentity (table : PrintableTable) (value : Json F) :
    Except (EventEnvelopeError F) (EventIdentity table) :=
  match value with
  | .object fields => do
    refuseUnknown "identity" ["tenant_id", "collection", "document_id"] fields
    let tenantId ← safeText table (get fields "tenant_id") "identity.tenant_id" 256
    if tenantId.text.contains 31 then
      refuse "identity.tenant_id contains a reserved separator"
    let collection ← identifier (get fields "collection") "identity.collection" namePattern
    let documentId ←
      identifier (get fields "document_id") "identity.document_id" documentIdPattern
    .ok { tenantId, collection, documentId }
  | _ => refuse "identity must be an object"

/-- `_parse_trace` -/
def parseTrace (table : PrintableTable) (value : Json F) :
    Except (EventEnvelopeError F) (TraceMetadata table) :=
  match value with
  | .object fields => do
    refuseUnknown "trace" ["request_id", "correlation_id", "traceparent", "tracestate"] fields
    let requestId ← safeOptionalText table (get fields "request_id") "trace.request_id"
    let correlationId ←
      safeOptionalText table (get fields "correlation_id") "trace.correlation_id"
    let parent ← traceparent table (get fields "traceparent")
    let tracestate ← safeOptionalText table (get fields "tracestate") "trace.tracestate"
    .ok { requestId, correlationId, traceparent := parent, tracestate }
  | _ => refuse "trace must be an object"

end Fields

/-! ## Operations and documents -/

section Values

variable [PyFloat F]

/-- `str(value)`, of a value that is no list or dict: those begin with a bracket. -/
def strOf : Json F → Option Text
  | .null => some (chars "None")
  | .bool true => some (chars "True")
  | .bool false => some (chars "False")
  | .int n =>
    if (natText n.natAbs).length ≤ maxStrDigits then some (intLiteral n).text else none
  | .float x => some (floatLiteral (PyFloat.decimal x)).text
  | .nan => some (chars "nan")
  | .infinity false => some (chars "inf")
  | .infinity true => some (chars "-inf")
  | .str text => some text
  | .list _ => none
  | .object _ => none

/-- `str(value or default)` -/
def strOr (value : Json F) (default : String) : Option Text :=
  if value.isFalsy then some (chars default) else strOf value

def lowerChar (c : ℕ) : ℕ := if 65 ≤ c ∧ c ≤ 90 then c + 32 else c

/-- The words of `OPERATIONS`. -/
def operationText : Operation → Text
  | .upsert => chars "upsert"
  | .delete => chars "delete"
  | .tombstone => chars "tombstone"

def operationOf (text : Text) : Option Operation :=
  [Operation.upsert, .delete, .tombstone].find? fun operation => operationText operation = text

/-- `str(value or default).strip().lower()`, of the words that it compares with: beyond
ASCII, nothing is lowered to a letter of them. -/
def parseOperation (value : Json F) (default : String) : Option Operation :=
  (strOr value default).bind fun text => operationOf ((stripText text).map lowerChar)

/-- What was printed and read back can be printed. -/
theorem dumpable_of_normalize {v w : JsonValue F} (normalized : Json.normalize v = some w) :
    w.json.Dumpable := by
  by_cases dumpable : v.json.Dumpable
  · rw [Json.normalize_eq dumpable] at normalized
    obtain rfl := Option.some.inj normalized
    exact Json.dumpable_sortKeys.mpr dumpable
  · rw [Json.normalize_eq_none dumpable] at normalized
    cases normalized

/-- `_json_object` -/
def jsonObject (value : Json F) (fieldName : String) :
    Except (EventEnvelopeError F) (Document F) :=
  match decoded : Json.normalize (Json.held value) with
  | some normalized =>
    if object : ControlPlane.isObject normalized.json = true then
      .ok ⟨normalized, object, dumpable_of_normalize decoded⟩
    else refuse (fieldName ++ " must be a JSON object")
  | none => refuse (fieldName ++ " must contain only finite JSON values")

/-- A dict that is not empty. -/
def isFilledObject : Json F → Bool
  | .object (_ :: _) => true
  | _ => false

/-- The fields of a dict. -/
def fieldsOf : Json F → List (Text × Json F)
  | .object fields => fields
  | _ => []

/-- The check that no identifier occurs twice. -/
def distinctTargets {pattern : NamePattern} (targets : List (Identifier pattern)) :
    Except (EventEnvelopeError F) (PLift targets.Nodup) :=
  if distinct : targets.Nodup then .ok ⟨distinct⟩
  else refuse "target_clusters must not contain duplicates"

/-- The clusters that an event is addressed to. -/
def parseTargets (value : Json F) :
    Except (EventEnvelopeError F) (List (Identifier namePattern)) :=
  match value with
  | .list (first :: others) =>
    (first :: others).mapM fun target => identifier target "target_clusters[]" namePattern
  | _ => refuse "target_clusters must be a non-empty array"

/-- The document of an upsert. -/
def parseDocument (value deleteFilter : Json F) (documentId : Text) :
    Except (EventEnvelopeError F) (Document F) :=
  if isFilledObject value then
    if strOr (get (fieldsOf value) "id") "" = some documentId then
      if isNone deleteFilter then jsonObject value "document"
      else refuse "delete_filter is not allowed for upsert events"
    else refuse "document.id must exactly match identity.document_id"
  else refuse "document is required for an upsert event"

/-- The filter of a deletion, which has no document. -/
def parseDeletion (table : PrintableTable) (value deleteFilter : Json F) (documentId : Text) :
    Except (EventEnvelopeError F) (Option (SafeText table 1024)) :=
  if isNone value then
    if isNone deleteFilter then .ok none
    else (tenantDeleteFilter table deleteFilter documentId).map some
  else refuse "document is not allowed for delete or tombstone events"

variable (table : PrintableTable) (otherFormats : Text → Option Moment)

/-- `_parse_v2` -/
def parseV2 (payload : List (Text × Json F)) :
    Except (EventEnvelopeError F) (IndexingEventV2 table F) := do
  refuseUnknown "v2 event"
    ["envelope_version", "event_id", "identity", "document_version", "sequence", "operation",
      "routing_revision", "rollout_id", "target_clusters", "occurred_at", "trace", "document",
      "delete_filter"] payload
  let eventId ← identifier (get payload "event_id") "event_id" eventIdPattern
  let identity ← parseIdentity table (get payload "identity")
  let documentVersion ← positiveInt (get payload "document_version") "document_version"
  let sequence ← positiveInt (get payload "sequence") "sequence"
  let routingRevision ← positiveInt (get payload "routing_revision") "routing_revision"
  let some operation := parseOperation (get payload "operation") ""
    | refuse "operation must be one of upsert, delete, or tombstone"
  let rolloutId ←
    if isNone (get payload "rollout_id") then .ok none
    else (identifier (get payload "rollout_id") "rollout_id" namePattern).map some
  let targetClusters ← parseTargets (get payload "target_clusters")
  let distinct ← distinctTargets targetClusters
  let occurredAt ← timestamp otherFormats (get payload "occurred_at")
  let trace ← parseTrace table
    (if isNone (get payload "trace") then .object [] else get payload "trace")
  let document ←
    if operation = .upsert then
      (parseDocument (get payload "document") (get payload "delete_filter")
        identity.documentId.text).map some
    else .ok none
  let deleteFilter ←
    if operation = .upsert then .ok none
    else
      parseDeletion table (get payload "document") (get payload "delete_filter")
        identity.documentId.text
  .ok
    { eventId, identity, documentVersion, sequence, operation, routingRevision, rolloutId,
      targetClusters, occurredAt, trace, document, deleteFilter, targets_nodup := distinct.down }

/-- `_parse_legacy` -/
def parseLegacy (payload : List (Text × Json F)) :
    Except (EventEnvelopeError F) (LegacyIndexingEvent table F) := do
  let some operation := (parseOperation (get payload "action") "upsert").filter (· ≠ .tombstone)
    | .error (.unsupportedAction (get payload "action"))
  let collection ← identifier (get payload "collection") "collection" namePattern
  let document := get payload "document"
  if operation = .upsert ∧ !isFilledObject document then
    refuse "Legacy upsert event requires document"
  let documentId := (strOr (if operation = .upsert then get (fieldsOf document) "id"
    else get payload "document_id") "").getD []
  if matched : documentIdPattern.fullmatch documentId = true then
    let targetCluster ←
      if (get payload "target_cluster").isFalsy then .ok none
      else (identifier (get payload "target_cluster") "target_cluster" namePattern).map some
    let requestId ← safeText table
      (if (get payload "request_id").isFalsy then .str (chars "-") else get payload "request_id")
      "request_id" 256
    let deleteFilter ←
      if isNone (get payload "filter_by") then .ok none
      else (safeText table (get payload "filter_by") "filter_by" 4096).map some
    .ok
      { operation, collection, documentId := ⟨documentId, matched⟩, targetCluster
        document := match document with
          | .object fields => some fields
          | _ => none
        requestId, deleteFilter }
  else refuse "Legacy event has an invalid document id"

/-- `version == ENVELOPE_VERSION` -/
def isEnvelopeVersion : Json F → Bool
  | .int n => n = 2
  | .float x => PyFloat.asInteger x = some 2
  | _ => false

/-- `parse_indexing_event` -/
def parseIndexingEvent (allowLegacy : Bool) (payload : JsonValue F) :
    Except (EventEnvelopeError F) (ParsedIndexingEvent table F) :=
  match payload.json with
  | .object fields =>
    if isEnvelopeVersion (get fields "envelope_version") then
      (parseV2 table otherFormats fields).map .v2
    else if !isNone (get fields "envelope_version") then
      .error (.unsupportedVersion (get fields "envelope_version"))
    else if allowLegacy then (parseLegacy table fields).map .legacy
    else refuse "Legacy indexing event rejected; envelope_version=2 is required"
  | _ => refuse "Indexing event must be a JSON object"

end Values

end ImposbroSearch.Indexing.EventEnvelope
