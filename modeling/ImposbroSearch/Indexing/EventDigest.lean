import ImposbroSearch.Foundation.JsonCharacters
import ImposbroSearch.Indexing.EventParsing

/-!
# The digest of an event

An event is digested as canonical JSON in UTF-8. The parser makes sure that there is a
canonical text, but not that it can be encoded: a document may have a lone surrogate in a
string or a key. Every other event has a digest, which determines it up to its trace
context, its time, and the order of its targets.
-/

namespace ImposbroSearch.Indexing.EventEnvelope

open ImposbroSearch.Foundation ImposbroSearch.ControlPlane

variable {table : PrintableTable} {F : Type}

/-! ## Texts of an event -/

theorem isAlphanumeric_lt {c : ℕ} (member : isAlphanumeric c = true) : c < 128 := by
  simp only [isAlphanumeric, isDigit, Bool.or_eq_true, Bool.and_eq_true, decide_eq_true_eq] at member
  omega

/-- A pattern of characters in ASCII. -/
def NamePattern.Ascii (pattern : NamePattern) : Prop := ∀ c, pattern.allowed c = true → c < 128

theorem namePattern_ascii : namePattern.Ascii := by
  intro c member
  simp only [namePattern, Bool.or_eq_true, decide_eq_true_eq] at member
  rcases member with (letter | rfl) | rfl
  · exact isAlphanumeric_lt letter
  · norm_num
  · norm_num

theorem documentIdPattern_ascii : documentIdPattern.Ascii := by
  intro c member
  simp only [documentIdPattern, Bool.or_eq_true, decide_eq_true_eq] at member
  rcases member with ((letter | rfl) | rfl) | rfl
  · exact isAlphanumeric_lt letter
  · norm_num
  · norm_num
  · norm_num

theorem eventIdPattern_ascii : eventIdPattern.Ascii := by
  intro c member
  simp only [eventIdPattern, Bool.or_eq_true, decide_eq_true_eq] at member
  rcases member with (((letter | rfl) | rfl) | rfl) | rfl
  · exact isAlphanumeric_lt letter
  · norm_num
  · norm_num
  · norm_num
  · norm_num

/-- A text that UTF-8 encodes. -/
def IsScalarText (text : Text) : Prop := ∀ c ∈ text, IsScalar c

theorem isScalarText_of_ascii {text : Text} (ascii : ∀ c ∈ text, c < 128) : IsScalarText text :=
  fun c member => Or.inl ((ascii c member).trans (by norm_num))

theorem Identifier.scalar {pattern : NamePattern} (ascii : pattern.Ascii)
    (identifier : Identifier pattern) : IsScalarText identifier.text := by
  have matched := identifier.matched
  unfold NamePattern.fullmatch at matched
  rw [Bool.and_eq_true, List.all_eq_true] at matched
  exact isScalarText_of_ascii fun c member => ascii c (matched.2 c member)

theorem SafeText.scalar {maximum : ℕ} (text : SafeText table maximum) : IsScalarText text.text :=
  fun c member => table.scalar c (text.printable c member)

theorem utf8Encode_isSome {text : Text} : utf8Encode text ≠ none ↔ IsScalarText text := by
  unfold utf8Encode IsScalarText
  split
  next scalar => exact iff_of_true (Option.some_ne_none _) scalar
  next other => exact iff_of_false (fun some => some rfl) other

/-! ## The material -/

/-- A text or `null`. -/
def optionalText (text : Option Text) : Json F := text.elim .null .str

/-- The document of an event, or `null`. -/
def documentJson (document : Option (Document F)) : Json F := document.elim .null (·.value.json)

def identityJson (identity : EventIdentity table) : Json F :=
  .object
    [(chars "tenant_id", .str identity.tenantId.text),
      (chars "collection", .str identity.collection.text),
      (chars "document_id", .str identity.documentId.text)]

/-- What `indexing_event_digest` prints. -/
def material (event : IndexingEventV2 table F) : Json F :=
  .object
    [(chars "envelope_version", .int 2),
      (chars "event_id", .str event.eventId.text),
      (chars "identity", identityJson event.identity),
      (chars "document_version", .int event.documentVersion.value),
      (chars "sequence", .int event.sequence.value),
      (chars "operation", .str (operationText event.operation)),
      (chars "routing_revision", .int event.routingRevision.value),
      (chars "rollout_id", optionalText (event.rolloutId.map Identifier.text)),
      (chars "target_clusters",
        .list (((event.targetClusters.map Identifier.text).insertionSort (· ≤ ·)).map .str)),
      (chars "document", documentJson event.document),
      (chars "delete_filter", optionalText (event.deleteFilter.map SafeText.text))]

def identityKeys : List Text := [chars "tenant_id", chars "collection", chars "document_id"]

def materialKeys : List Text :=
  [chars "envelope_version", chars "event_id", chars "identity", chars "document_version",
    chars "sequence", chars "operation", chars "routing_revision", chars "rollout_id",
    chars "target_clusters", chars "document", chars "delete_filter"]

theorem identityKeys_nodup : identityKeys.Nodup := by decide

theorem materialKeys_nodup : materialKeys.Nodup := by decide

/-- `indexing_event_digest` -/
def indexingEventDigest [PyFloat F] (hash : List ℕ → Text) (event : IndexingEventV2 table F) :
    Option Text := (Json.canonicalJson (material event)).bind (digestOf hash)

section Parts

variable {P : JsonPart F → Prop}

theorem forall_parts_str {text : Text} :
    (∀ part ∈ (Json.str (F := F) text).parts, P part) ↔ P (.text text) := by
  simp [Json.parts]

theorem forall_parts_int {n : ℤ} :
    (∀ part ∈ (Json.int (F := F) n).parts, P part) ↔ P (.int n) := by
  simp [Json.parts]

theorem forall_parts_identityJson (keys : ∀ keys : List Text, keys.Nodup → P (.keys keys))
    (texts : ∀ text, IsScalarText text → P (.text text)) (identity : EventIdentity table) :
    ∀ part ∈ (identityJson (F := F) identity).parts, P part := by
  have key : ∀ key ∈ identityKeys, P (.text key) := by
    have ascii : ∀ key ∈ identityKeys, ∀ c ∈ key, c < 128 := by decide
    exact fun key member => texts key (isScalarText_of_ascii (ascii key member))
  unfold identityJson
  rw [Json.forall_parts_object]
  simp only [List.forall_mem_cons, forall_parts_str]
  exact ⟨keys identityKeys identityKeys_nodup,
    ⟨key _ (by decide), texts _ identity.tenantId.scalar⟩,
    ⟨key _ (by decide), texts _ (identity.collection.scalar namePattern_ascii)⟩,
    ⟨key _ (by decide), texts _ (identity.documentId.scalar documentIdPattern_ascii)⟩,
    fun _ member => absurd member List.not_mem_nil⟩

theorem forall_parts_optionalText {text : Option Text} :
    (∀ part ∈ (optionalText (F := F) text).parts, P part) ↔ ∀ own ∈ text, P (.text own) := by
  cases text with
  | none => simp [optionalText, Json.parts]
  | some own => simp [optionalText, Json.parts]

/-- **The parts of a material** are harmless, apart from those of the document. -/
theorem forall_parts_material (keys : ∀ keys : List Text, keys.Nodup → P (.keys keys))
    (texts : ∀ text, IsScalarText text → P (.text text))
    (ints : ∀ n, 1 ≤ n ∧ n ≤ maxInt64 → P (.int n)) (event : IndexingEventV2 table F) :
    (∀ part ∈ (material event).parts, P part) ↔
      ∀ document ∈ event.document, ∀ part ∈ document.value.json.parts, P part := by
  have ascii : ∀ text : String, (∀ c ∈ chars text, c < 128) → P (.text (chars text)) :=
    fun text small => texts _ (isScalarText_of_ascii small)
  have operation : ∀ operation, ∀ c ∈ operationText operation, c < 128 := by
    intro operation
    cases operation with
    | upsert => decide
    | delete => decide
    | tombstone => decide
  have targets : ∀ text ∈ (event.targetClusters.map Identifier.text).insertionSort (· ≤ ·),
      P (.text text) := by
    intro text member
    obtain ⟨target, -, rfl⟩ := List.mem_map.mp ((List.mem_insertionSort _).mp member)
    exact texts _ (target.scalar namePattern_ascii)
  have rollout : ∀ own ∈ event.rolloutId.map Identifier.text, P (.text own) := by
    intro own member
    obtain ⟨rolloutId, -, rfl⟩ := Option.mem_map.mp member
    exact texts _ (rolloutId.scalar namePattern_ascii)
  have filter : ∀ own ∈ event.deleteFilter.map SafeText.text, P (.text own) := by
    intro own member
    obtain ⟨deleteFilter, -, rfl⟩ := Option.mem_map.mp member
    exact texts _ deleteFilter.scalar
  have document : (∀ part ∈ (documentJson event.document).parts, P part) ↔
      ∀ document ∈ event.document, ∀ part ∈ document.value.json.parts, P part := by
    cases event.document with
    | none => simp [documentJson, Json.parts]
    | some document => simp [documentJson]
  unfold material
  rw [Json.forall_parts_object]
  simp only [List.forall_mem_cons, forall_parts_str, forall_parts_int, forall_parts_optionalText,
    Json.forall_parts_list, List.forall_mem_map, document]
  constructor
  · rintro ⟨-, -, -, -, -, -, -, -, -, -, ⟨-, inside⟩, -⟩
    exact inside
  · intro inside
    refine ⟨keys materialKeys materialKeys_nodup, ⟨ascii _ (by decide), ints 2 (by decide)⟩,
      ⟨ascii _ (by decide), texts _ (event.eventId.scalar eventIdPattern_ascii)⟩,
      ⟨ascii _ (by decide), forall_parts_identityJson keys texts event.identity⟩,
      ⟨ascii _ (by decide), ints _ event.documentVersion.bounds⟩,
      ⟨ascii _ (by decide), ints _ event.sequence.bounds⟩,
      ⟨ascii _ (by decide), texts _ (isScalarText_of_ascii (operation event.operation))⟩,
      ⟨ascii _ (by decide), ints _ event.routingRevision.bounds⟩,
      ⟨ascii _ (by decide), rollout⟩, ⟨ascii _ (by decide), targets⟩,
      ⟨ascii _ (by decide), inside⟩, ⟨ascii _ (by decide), filter⟩,
      fun _ member => absurd member List.not_mem_nil⟩

end Parts

/-- A document of texts that can be encoded: no string and no key has a lone surrogate. -/
def IndexingEventV2.Encodable (event : IndexingEventV2 table F) : Prop :=
  ∀ document ∈ event.document, ∀ text, .text text ∈ document.value.json.parts → IsScalarText text

theorem unique_identityJson (identity : EventIdentity table) :
    (identityJson (F := F) identity).Unique :=
  Json.unique_iff.mpr
    (forall_parts_identityJson (fun _ distinct => distinct) (fun _ _ => trivial) identity)

theorem unique_material (event : IndexingEventV2 table F) : (material event).Unique := by
  rw [Json.unique_iff, forall_parts_material]
  · exact fun document _ => Json.unique_iff.mp document.value.unique
  · exact fun keys distinct => distinct
  · exact fun _ _ => trivial
  · exact fun _ _ => trivial

theorem dumpable_material (event : IndexingEventV2 table F) : (material event).Dumpable := by
  unfold Json.Dumpable
  rw [forall_parts_material]
  · exact fun document _ => document.dumpable
  · exact fun _ _ => trivial
  · exact fun _ _ => trivial
  · intro n bounds
    have small : n.natAbs < 10 ^ 19 := by
      unfold maxInt64 at bounds
      omega
    exact (natText_length_le (by norm_num) small).trans (by norm_num [maxStrDigits])

/-- The texts of a material can be encoded if those of the document can. -/
theorem scalar_material {event : IndexingEventV2 table F} :
    (∀ text, .text text ∈ (material event).parts → IsScalarText text) ↔ event.Encodable := by
  have texts : ∀ parts : List (JsonPart F), (∀ text, .text text ∈ parts → IsScalarText text) ↔
      ∀ part ∈ parts, ∀ text, part = .text text → IsScalarText text := by
    intro parts
    constructor
    · rintro all part member text rfl
      exact all text member
    · intro all text member
      exact all _ member text rfl
  unfold IndexingEventV2.Encodable
  rw [texts, forall_parts_material]
  · exact forall₂_congr fun document _ => (texts _).symm
  · exact fun _ _ _ same => by cases same
  · rintro text scalar other ⟨⟩
    exact scalar
  · exact fun _ _ _ same => by cases same

/-! ## Definedness -/

variable [PyFloat F] {hash : List ℕ → Text}

/-- **The characters of a compact text** are those of the value's strings. -/
theorem scalar_print {v : Json F} :
    IsScalarText (Json.print Json.compact v) ↔ ∀ text, .text text ∈ v.parts → IsScalarText text := by
  constructor
  · intro scalar text part c member
    by_cases beyond : 127 ≤ c
    · exact scalar c (Json.print_shows rfl beyond member v part)
    · exact Or.inl (by omega)
  · intro scalar c member
    by_cases beyond : 127 ≤ c
    · obtain ⟨text, part, inside⟩ := (Json.mem_print Json.compact v member).2 beyond
      exact scalar text part c inside
    · exact Or.inl (by omega)

omit [PyFloat F] in
theorem text_mem_sortKeys {v : Json F} {text : Text} :
    .text text ∈ (Json.sortKeys v).parts ↔ .text text ∈ v.parts := by
  have absent : (∀ part ∈ (Json.sortKeys v).parts, part ≠ .text text) ↔
      ∀ part ∈ v.parts, part ≠ .text text :=
    Json.forall_parts_orderKeys fun _ _ same => by cases same
  rw [← not_iff_not]
  constructor
  · intro missing member
    exact absent.mp (fun part there same => missing (same ▸ there)) _ member rfl
  · intro missing member
    exact absent.mpr (fun part there same => missing (same ▸ there)) _ member rfl

/-- **An event has a digest** if its document can be encoded, and only then. -/
theorem digest_ne_none (event : IndexingEventV2 table F) :
    indexingEventDigest hash event ≠ none ↔ event.Encodable := by
  unfold indexingEventDigest digestOf
  rw [Json.canonicalJson_eq (dumpable_material event), Option.bind_some, ne_eq,
    Option.map_eq_none_iff, ← ne_eq, utf8Encode_isSome, scalar_print, ← scalar_material]
  exact forall_congr' fun text => imp_congr_left text_mem_sortKeys

/-! ## Faithfulness -/

/-- The events are equal as JSON values, up to their trace context, their time, and the
order of their targets. -/
structure IndexingEventV2.Same (first second : IndexingEventV2 table F) : Prop where
  eventId : first.eventId = second.eventId
  identity : first.identity = second.identity
  documentVersion : first.documentVersion = second.documentVersion
  sequence : first.sequence = second.sequence
  operation : first.operation = second.operation
  routingRevision : first.routingRevision = second.routingRevision
  rolloutId : first.rolloutId = second.rolloutId
  targetClusters : first.targetClusters.Perm second.targetClusters
  document : (first.document.map fun document => Json.sortKeys document.value.json) =
    second.document.map fun document => Json.sortKeys document.value.json
  deleteFilter : first.deleteFilter = second.deleteFilter

omit [PyFloat F] in
theorem sortKeys_optionalText (text : Option Text) :
    Json.sortKeys (optionalText (F := F) text) = optionalText text := by
  cases text with
  | none => rfl
  | some own => rfl

omit [PyFloat F] in
theorem optionalText_injective : Function.Injective (optionalText (F := F)) := by
  intro first second same
  cases first with
  | none =>
      cases second with
      | none => rfl
      | some text => cases same
  | some text =>
      cases second with
      | none => cases same
      | some other => exact congrArg some (Json.str.inj same)

omit [PyFloat F] in
theorem Document.ne_null (document : Document F) : Json.sortKeys document.value.json ≠ .null := by
  have object := document.isObject
  intro null
  cases shape : document.value.json with
  | object fields =>
      rw [shape, Json.sortKeys, Json.orderKeys_object] at null
      cases null
  | null => rw [shape] at object; cases object
  | bool => rw [shape] at object; cases object
  | int => rw [shape] at object; cases object
  | float => rw [shape] at object; cases object
  | nan => rw [shape] at object; cases object
  | infinity => rw [shape] at object; cases object
  | str => rw [shape] at object; cases object
  | list => rw [shape] at object; cases object

omit [PyFloat F] in
theorem sortKeys_documentJson {first second : Option (Document F)} :
    Json.sortKeys (documentJson first) = Json.sortKeys (documentJson second) ↔
      (first.map fun document => Json.sortKeys document.value.json) =
        second.map fun document => Json.sortKeys document.value.json := by
  cases first with
  | none =>
      cases second with
      | none => exact iff_of_true rfl rfl
      | some other => exact iff_of_false (fun same => other.ne_null same.symm) (by simp)
  | some document =>
      cases second with
      | none => exact iff_of_false document.ne_null (by simp)
      | some other => exact ⟨congrArg some, Option.some.inj⟩

omit [PyFloat F] in
theorem insertionSort_texts {first second : List (Identifier namePattern)} :
    (first.map Identifier.text).insertionSort (· ≤ ·) =
      (second.map Identifier.text).insertionSort (· ≤ ·) ↔ first.Perm second := by
  have texts : Function.Injective (Identifier.text : Identifier namePattern → Text) :=
    fun _ _ same => Identifier.ext same
  rw [← List.map_perm_map_iff texts]
  constructor
  · intro same
    have sorted := List.perm_insertionSort (· ≤ ·) (first.map Identifier.text)
    rw [same] at sorted
    exact sorted.symm.trans (List.perm_insertionSort _ _)
  · intro same
    refine List.Perm.eq_of_pairwise ?_ (List.pairwise_insertionSort (· ≤ ·) _)
      (List.pairwise_insertionSort (· ≤ ·) _)
      ((List.perm_insertionSort _ _).trans (same.trans (List.perm_insertionSort _ _).symm))
    exact fun _ _ _ _ => le_antisymm

omit [PyFloat F] in
theorem operationText_injective : Function.Injective operationText := by
  intro first second
  cases first <;> cases second <;> decide

omit [PyFloat F] in
theorem sortKeys_texts (texts : List Text) :
    Json.sortKeys (.list (texts.map (Json.str (F := F)))) = .list (texts.map .str) := by
  unfold Json.sortKeys
  rw [Json.orderKeys_list, List.map_map]
  rfl

omit [PyFloat F] in
/-- **Canonical materials are equal** exactly for the same events. -/
theorem sortKeys_material {first second : IndexingEventV2 table F} :
    Json.sortKeys (material first) = Json.sortKeys (material second) ↔ first.Same second := by
  constructor
  · intro same
    have field : ∀ (key : Text) (v w : Json F), (material first).field key = some v →
        (material second).field key = some w → Json.sortKeys v = Json.sortKeys w :=
      fun _ _ _ => Json.sortKeys_of_field (unique_material first) (unique_material second) same
    have identity := field (chars "identity") _ _ rfl rfl
    have own : ∀ (key : Text) (v w : Json F), (identityJson first.identity).field key = some v →
        (identityJson second.identity).field key = some w → Json.sortKeys v = Json.sortKeys w :=
      fun key _ _ =>
        Json.sortKeys_of_field (unique_identityJson _) (unique_identityJson _) identity
    have rollout := field (chars "rollout_id") _ _ rfl rfl
    have filter := field (chars "delete_filter") _ _ rfl rfl
    have targets := field (chars "target_clusters") _ _ rfl rfl
    rw [sortKeys_optionalText, sortKeys_optionalText] at rollout filter
    rw [sortKeys_texts, sortKeys_texts] at targets
    constructor
    case eventId => exact Identifier.ext (Json.str.inj (field (chars "event_id") _ _ rfl rfl))
    case identity =>
      apply EventIdentity.ext
      · exact SafeText.ext (Json.str.inj (own (chars "tenant_id") _ _ rfl rfl))
      · exact Identifier.ext (Json.str.inj (own (chars "collection") _ _ rfl rfl))
      · exact Identifier.ext (Json.str.inj (own (chars "document_id") _ _ rfl rfl))
    case documentVersion =>
      exact PositiveInt.ext (Json.int.inj (field (chars "document_version") _ _ rfl rfl))
    case sequence => exact PositiveInt.ext (Json.int.inj (field (chars "sequence") _ _ rfl rfl))
    case operation =>
      exact operationText_injective (Json.str.inj (field (chars "operation") _ _ rfl rfl))
    case routingRevision =>
      exact PositiveInt.ext (Json.int.inj (field (chars "routing_revision") _ _ rfl rfl))
    case rolloutId =>
      exact Option.map_injective (fun _ _ => Identifier.ext) (optionalText_injective rollout)
    case targetClusters =>
      apply insertionSort_texts.mp
      exact List.map_injective_iff.mpr (fun _ _ => Json.str.inj) (Json.list.inj targets)
    case document => exact sortKeys_documentJson.mp (field (chars "document") _ _ rfl rfl)
    case deleteFilter =>
      exact Option.map_injective (fun _ _ => SafeText.ext) (optionalText_injective filter)
  · intro same
    have document := sortKeys_documentJson.mpr same.document
    unfold Json.sortKeys at document ⊢
    unfold material
    rw [Json.orderKeys_object, Json.orderKeys_object]
    simp only [List.map_cons, List.map_nil, document, same.eventId, same.identity,
      same.documentVersion, same.sequence, same.operation, same.routingRevision, same.rolloutId,
      insertionSort_texts.mpr same.targetClusters, same.deleteFilter]

/-- **A digest determines its event**, and is determined by it. -/
theorem digest_eq_iff (injective : Function.Injective hash) {first second : IndexingEventV2 table F}
    (digested : indexingEventDigest hash first ≠ none) :
    indexingEventDigest hash first = indexingEventDigest hash second ↔ first.Same second := by
  rw [← sortKeys_material]
  constructor
  · intro same
    obtain ⟨digest, first'⟩ := Option.ne_none_iff_exists'.mp digested
    have second' := same.symm.trans first'
    obtain ⟨text, printed, hashed⟩ := Option.bind_eq_some_iff.mp first'
    obtain ⟨other, printed', hashed'⟩ := Option.bind_eq_some_iff.mp second'
    obtain ⟨bytes, encoded, rfl⟩ := Option.map_eq_some_iff.mp hashed
    obtain ⟨bytes', encoded', hashes⟩ := Option.map_eq_some_iff.mp hashed'
    obtain rfl := injective hashes
    obtain rfl := utf8Encode_injective encoded encoded'
    exact Json.canonicalJson_injective printed printed'
  · intro same
    unfold indexingEventDigest
    rw [Json.canonicalJson_congr same]

/-! ## Checkpoints -/

/-- `logical_key` -/
def EventIdentity.logicalKey (identity : EventIdentity table) : Text :=
  [31].intercalate [identity.tenantId.text, identity.collection.text, identity.documentId.text]

/-- `TargetCheckpoint` -/
@[ext] structure TargetCheckpoint where
  identityKey : Text
  tenantId : Text
  collection : Text
  documentId : Text
  targetCluster : Text
  sequence : ℤ
  documentVersion : ℤ
  operation : Text
  eventId : Text
  eventDigest : Text
  occurredAt : Text
  appliedAtMs : ℤ
  tombstone : Bool
  routingRevision : ℤ
  rolloutId : Text
  deriving DecidableEq

/-- `operation in {"delete", "tombstone"}` -/
def isRemoval (operation : Text) : Bool :=
  operation = chars "delete" || operation = chars "tombstone"

/-- `checkpoint_from_event` -/
def checkpointFromEvent (hash : List ℕ → Text) (event : IndexingEventV2 table F)
    (targetCluster : Text) (appliedAt : Datetime) : Option TargetCheckpoint :=
  (indexingEventDigest hash event).map fun eventDigest =>
    { identityKey := event.identity.logicalKey
      tenantId := event.identity.tenantId.text
      collection := event.identity.collection.text
      documentId := event.identity.documentId.text
      targetCluster
      sequence := event.sequence.value
      documentVersion := event.documentVersion.value
      operation := operationText event.operation
      eventId := event.eventId.text
      eventDigest
      occurredAt := event.occurredAt.isoformat
      appliedAtMs := milliseconds appliedAt
      tombstone := isRemoval (operationText event.operation)
      routingRevision := event.routingRevision.value
      rolloutId := (event.rolloutId.map Identifier.text).getD [] }

/-! ## Accepted events -/

variable (otherFormats : Text → Option Moment)

/-- The event has a digest, which the parser's other events share if they are the same,
and its checkpoints can be built. -/
structure DigestFaithful (hash : List ℕ → Text) (event : IndexingEventV2 table F) : Prop where
  digested : indexingEventDigest hash event ≠ none
  checkpointed : ∀ target appliedAt, checkpointFromEvent hash event target appliedAt ≠ none
  determined : ∀ allowLegacy payload other,
    parseIndexingEvent table otherFormats allowLegacy payload = .ok (.v2 other) →
      (indexingEventDigest hash event = indexingEventDigest hash other ↔ event.Same other)

/-- **The digest of an accepted event** is defined and faithful, and its checkpoints can be
built, exactly if its document can be encoded: if no string and no key of it has a lone
surrogate. -/
theorem event_digest_iff (injective : Function.Injective hash) (allowLegacy : Bool)
    (payload : JsonValue F) (event : IndexingEventV2 table F)
    (_ : parseIndexingEvent table otherFormats allowLegacy payload = .ok (.v2 event)) :
    DigestFaithful otherFormats hash event ↔ event.Encodable := by
  rw [← digest_ne_none]
  constructor
  · exact fun faithful => faithful.digested
  · intro digested
    refine ⟨digested, fun target appliedAt => ?_, fun _ _ other _ => digest_eq_iff injective digested⟩
    unfold checkpointFromEvent
    rw [ne_eq, Option.map_eq_none_iff]
    exact digested

/-! ## A lone surrogate -/

/-- The printable characters of ASCII. -/
def asciiTable : PrintableTable where
  printable c := 32 ≤ c && c < 127
  scalar c small := by
    simp only [Bool.and_eq_true, decide_eq_true_eq] at small
    exact Or.inl (by omega)

/-- A Kafka value: a note is written, with this text as a JSON string. -/
def noteValue (note : String) : Text :=
  ["\x7b\"envelope_", "version\":2,", "\"event_id\":", "\"evt:0001\",", "\"identity\":",
    "\x7b\"tenant_id\":", "\"acme\",", "\"collection\":", "\"notes\",", "\"document_id\"",
    ":\"n1\"\x7d,", "\"document_", "version\":1,", "\"sequence\":1,", "\"operation\":",
    "\"upsert\",", "\"routing_", "revision\":1,", "\"target_", "clusters\":", "[\"default\"],",
    "\"occurred_at\":", "\"2026-01-01T", "00:00:00Z\",", "\"document\":", "\x7b\"id\":\"n1\",",
    "\"note\":\"", note, "\"\x7d\x7d"].flatMap chars

/-- What the parser makes of a Kafka value. -/
def parsedEvent (value : Text) : Option (IndexingEventV2 asciiTable SampleFloat) :=
  match Json.loads (F := SampleFloat) value with
  | .error _ => none
  | .ok payload =>
    match parseIndexingEvent asciiTable (fun _ => none) false payload with
    | .ok (.v2 event) => some event
    | _ => none

theorem accepted_of_parsedEvent {value : Text} {event : IndexingEventV2 asciiTable SampleFloat}
    (parsed : parsedEvent value = some event) :
    ∃ payload, Json.loads value = .ok payload ∧
      parseIndexingEvent asciiTable (fun _ => none) false payload = .ok (.v2 event) := by
  unfold parsedEvent at parsed
  split at parsed
  · cases parsed
  next payload loaded =>
    split at parsed
    next other accepted =>
      obtain rfl := Option.some.inj parsed
      exact ⟨payload, loaded, accepted⟩
    · cases parsed

/-- Whether an event has a digest does not depend on the hash. -/
theorem digest_eq_none {event : IndexingEventV2 table F} (other : List ℕ → Text) :
    indexingEventDigest hash event = none ↔ indexingEventDigest other event = none := by
  rw [← not_iff_not, ← ne_eq, ← ne_eq, digest_ne_none, digest_ne_none]

theorem event_digest_plain :
    ∃ (payload : JsonValue SampleFloat) (event : IndexingEventV2 asciiTable SampleFloat),
      Json.loads (noteValue "hello") = .ok payload ∧
        (DigestFaithful (fun _ => none) id event ↔ event.Encodable) := by
  obtain ⟨event, parsed⟩ : ∃ event, parsedEvent (noteValue "hello") = some event :=
    Option.isSome_iff_exists.mp (by decide +kernel)
  obtain ⟨payload, loaded, accepted⟩ := accepted_of_parsedEvent parsed
  exact ⟨payload, event, loaded,
    event_digest_iff (fun _ => none) Function.injective_id false payload event accepted⟩

/-- The event of a note with a lone surrogate is accepted, and has no digest: after the
note is written its checkpoint cannot be built. -/
theorem surrogate_without_digest :
    ∃ (payload : JsonValue SampleFloat) (event : IndexingEventV2 asciiTable SampleFloat),
      Json.loads (noteValue "\\ud800") = .ok payload ∧
      parseIndexingEvent asciiTable (fun _ => none) false payload = .ok (.v2 event) ∧
      ∀ hash, indexingEventDigest hash event = none ∧
        ∀ target appliedAt, checkpointFromEvent hash event target appliedAt = none := by
  have shown : (parsedEvent (noteValue "\\ud800")).map (fun event =>
      (indexingEventDigest id event).isNone) = some true := by decide +kernel
  obtain ⟨event, parsed, undigested⟩ := Option.map_eq_some_iff.mp shown
  obtain ⟨payload, loaded, accepted⟩ := accepted_of_parsedEvent parsed
  refine ⟨payload, event, loaded, accepted, fun hash => ?_⟩
  have none : indexingEventDigest hash event = none :=
    (digest_eq_none id).mpr (Option.isNone_iff_eq_none.mp undigested)
  refine ⟨none, fun target appliedAt => ?_⟩
  unfold checkpointFromEvent
  rw [none]
  rfl

end ImposbroSearch.Indexing.EventEnvelope
