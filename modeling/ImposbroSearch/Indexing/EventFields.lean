import Mathlib.Data.List.Forall2
import ImposbroSearch.Foundation.Checks
import ImposbroSearch.Indexing.EventParsing

/-!
# What the parser of events accepts

Each check of the parser says of a value that it is the text or the number that the event has
there, and the type of the field says the rest. So an event is parsed from exactly those
payloads that describe it: the lemmas below go from the single fields to the whole event.
-/

namespace ImposbroSearch.Indexing.EventEnvelope

open ImposbroSearch.Foundation

variable {table : PrintableTable} {F : Type}

/-! ## Texts and numbers -/

/-- A pattern without blanks. -/
def NamePattern.Solid (pattern : NamePattern) : Prop :=
  ∀ c, pattern.allowed c = true → isPySpace c = false

theorem isPySpace_eq_false {c : ℕ} (low : 33 ≤ c) (high : c < 133) : isPySpace c = false := by
  simp only [isPySpace, Bool.or_eq_false_iff, Bool.and_eq_false_iff, decide_eq_false_iff_not]
  omega

theorem isAlphanumeric_bounds {c : ℕ} (member : isAlphanumeric c = true) : 33 ≤ c ∧ c < 133 := by
  simp only [isAlphanumeric, isDigit, Bool.or_eq_true, Bool.and_eq_true,
    decide_eq_true_eq] at member
  omega

theorem NamePattern.Solid.mono {pattern wider : NamePattern} (solid : wider.Solid)
    (within : ∀ c, pattern.allowed c = true → wider.allowed c = true) : pattern.Solid :=
  fun c member => solid c (within c member)

theorem eventIdPattern_solid : eventIdPattern.Solid := by
  intro c member
  have bounds : 33 ≤ c ∧ c < 133 := by
    simp only [eventIdPattern, Bool.or_eq_true, decide_eq_true_eq] at member
    rcases member with (((letter | rfl) | rfl) | rfl) | rfl
    · exact isAlphanumeric_bounds letter
    · norm_num
    · norm_num
    · norm_num
    · norm_num
  exact isPySpace_eq_false bounds.1 bounds.2

/-- An event id may have every character of a document id, and a colon. -/
theorem documentIdPattern_solid : documentIdPattern.Solid := by
  refine eventIdPattern_solid.mono fun c member => ?_
  simp only [documentIdPattern, eventIdPattern, Bool.or_eq_true] at member ⊢
  rcases member with before | rest
  · exact Or.inl (Or.inl before)
  · exact Or.inr rest

/-- A document id may have every character of a name, and a dot. -/
theorem namePattern_solid : namePattern.Solid := by
  refine documentIdPattern_solid.mono fun c member => ?_
  simp only [namePattern, documentIdPattern, Bool.or_eq_true] at member ⊢
  rcases member with before | rest
  · exact Or.inl (Or.inl before)
  · exact Or.inr rest

theorem Identifier.stripped {pattern : NamePattern} (solid : pattern.Solid)
    (identifier : Identifier pattern) : stripText identifier.text = identifier.text := by
  have matched := identifier.matched
  unfold NamePattern.fullmatch at matched
  rw [Bool.and_eq_true, List.all_eq_true] at matched
  exact stripText_solid fun c member => solid c (matched.2 c member)

theorem identifier_eq_ok {pattern : NamePattern} (solid : pattern.Solid) {value : Json F}
    {fieldName : String} {accepted : Identifier pattern} :
    identifier value fieldName pattern = .ok accepted ↔ value = .str accepted.text := by
  constructor
  · intro parsed
    unfold identifier refuse at parsed
    split at parsed
    next text =>
      split_ifs at parsed
      cases parsed
      rfl
    next => cases parsed
  · rintro rfl
    unfold identifier
    simp only
    rw [if_neg (not_not_intro (accepted.stripped solid)), dif_pos accepted.matched]

theorem safeText_eq_ok {value : Json F} {fieldName : String} {maximum : ℕ}
    {accepted : SafeText table maximum} :
    safeText table value fieldName maximum = .ok accepted ↔ value = .str accepted.text := by
  constructor
  · intro parsed
    unfold safeText refuse at parsed
    split at parsed
    next text =>
      split_ifs at parsed
      cases parsed
      rfl
    next => cases parsed
  · rintro rfl
    unfold safeText
    simp only
    rw [dif_pos accepted.stripped, dif_pos ⟨accepted.length_pos, accepted.length_le⟩,
      dif_pos accepted.printable]

theorem positiveInt_eq_ok {value : Json F} {fieldName : String} {accepted : PositiveInt} :
    positiveInt value fieldName = .ok accepted ↔ value = .int accepted.value := by
  constructor
  · intro parsed
    unfold positiveInt refuse at parsed
    split at parsed
    next n =>
      split_ifs at parsed
      cases parsed
      rfl
    next => cases parsed
  · rintro rfl
    unfold positiveInt
    simp only
    rw [dif_pos accepted.bounds.1, dif_pos accepted.bounds.2]

/-- A value that may be missing: the text of it, if there is one. -/
def HoldsText (value : Json F) (text : Option Text) : Prop :=
  match text with
  | none => isAbsent value = true
  | some text => value = .str text

theorem isAbsent_safeText {maximum : ℕ} (accepted : SafeText table maximum) :
    isAbsent (.str accepted.text : Json F) = false := by
  obtain ⟨text, -, filled, -, -⟩ := accepted
  cases text with
  | nil => exact absurd rfl filled
  | cons c rest => rfl

theorem holdsText_absent {maximum : ℕ} {value : Json F} {accepted : Option (SafeText table maximum)}
    (absent : isAbsent value = true) :
    HoldsText value (accepted.map SafeText.text) ↔ accepted = none := by
  cases accepted with
  | none => exact iff_of_true absent rfl
  | some safe =>
      refine iff_of_false ?_ (Option.some_ne_none safe)
      rintro rfl
      rw [isAbsent_safeText safe] at absent
      cases absent

theorem holdsText_given {maximum : ℕ} {value : Json F} {accepted : Option (SafeText table maximum)}
    (given : ¬isAbsent value = true) :
    HoldsText value (accepted.map SafeText.text) ↔
      ∃ safe, value = .str safe.text ∧ some safe = accepted := by
  cases accepted with
  | none =>
      refine iff_of_false given ?_
      rintro ⟨safe, -, other⟩
      cases other
  | some own =>
      constructor
      · exact fun held => ⟨own, held, rfl⟩
      · rintro ⟨safe, held, same⟩
        cases same
        exact held

theorem safeOptionalText_eq_ok {value : Json F} {fieldName : String}
    {accepted : Option (SafeText table 1024)} :
    safeOptionalText table value fieldName = .ok accepted ↔
      HoldsText value (accepted.map SafeText.text) := by
  unfold safeOptionalText
  split_ifs with absent
  · rw [holdsText_absent absent, Except.ok.injEq]
    exact eq_comm
  · rw [holdsText_given absent, except_map_eq_ok]
    simp only [safeText_eq_ok]

theorem traceparent_eq_ok {value : Json F} {accepted : Option (SafeText table 55)} :
    traceparent table value = .ok accepted ↔
      HoldsText value (accepted.map SafeText.text) ∧
        ∀ safe ∈ accepted, isTraceparent safe.text = true := by
  unfold traceparent
  split_ifs with absent
  · rw [holdsText_absent absent, Except.ok.injEq]
    constructor
    · rintro rfl
      exact ⟨rfl, nofun⟩
    · exact fun parsed => parsed.1.symm
  · rw [holdsText_given absent, except_bind_eq_ok]
    simp only [safeText_eq_ok]
    constructor
    · rintro ⟨safe, held, rest⟩
      unfold refuse at rest
      split_ifs at rest with valid
      cases rest
      refine ⟨⟨safe, held, rfl⟩, fun own member => ?_⟩
      cases member
      exact valid
    · rintro ⟨⟨safe, held, rfl⟩, valid⟩
      exact ⟨safe, held, if_pos (valid safe rfl)⟩

/-! ## Objects and lists -/

theorem refuseUnknown_eq_ok {what : String} {allowed : List String}
    {fields : List (Text × Json F)} {done : Unit} :
    refuseUnknown what allowed fields = .ok done ↔
      ∀ field ∈ fields, field.1 ∈ allowed.map chars := by
  have unknown : unknownKeys allowed fields = [] ↔
      ∀ field ∈ fields, field.1 ∈ allowed.map chars := by
    unfold unknownKeys
    rw [← List.length_eq_zero_iff, List.length_insertionSort, List.length_eq_zero_iff,
      List.filter_eq_nil_iff, List.forall_mem_map]
    simp
  rw [← unknown]
  unfold refuseUnknown
  split
  next nothing => exact iff_of_true rfl nothing
  next some => exact iff_of_false nofun some

theorem parseTargets_eq_ok {value : Json F} {accepted : List (Identifier namePattern)} :
    parseTargets value = .ok accepted ↔
      value = .list (accepted.map fun target => .str target.text) ∧ accepted ≠ [] := by
  have each : ∀ items : List (Json F),
      (items.mapM fun target => identifier target "target_clusters[]" namePattern) = .ok accepted ↔
        items = accepted.map fun target => .str target.text := by
    intro items
    rw [except_mapM_eq_ok]
    simp only [identifier_eq_ok namePattern_solid]
    rw [← List.forall₂_map_right_iff, List.forall₂_eq_eq_eq]
  unfold parseTargets
  split
  next first others =>
    rw [each]
    constructor
    · intro same
      refine ⟨congrArg Json.list same, ?_⟩
      rintro rfl
      cases same
    · rintro ⟨same, -⟩
      exact Json.list.inj same
  next other =>
    refine iff_of_false nofun ?_
    rintro ⟨rfl, filled⟩
    cases accepted with
    | nil => exact filled rfl
    | cons first others => exact other _ _ rfl

/-- The fields of an identity. -/
structure DescribesIdentity (fields : List (Text × Json F)) (identity : EventIdentity table) :
    Prop where
  keys : ∀ field ∈ fields, field.1 ∈ ["tenant_id", "collection", "document_id"].map chars
  tenantId : get fields "tenant_id" = .str identity.tenantId.text
  separated : 31 ∉ identity.tenantId.text
  collection : get fields "collection" = .str identity.collection.text
  documentId : get fields "document_id" = .str identity.documentId.text

theorem parseIdentity_object {fields : List (Text × Json F)} {accepted : EventIdentity table} :
    parseIdentity table (.object fields) = .ok accepted ↔ DescribesIdentity fields accepted := by
  unfold parseIdentity
  simp only [except_bind_eq_ok, refuseUnknown_eq_ok, safeText_eq_ok]
  constructor
  · rintro ⟨-, keys, tenantId, tenant, rest⟩
    split_ifs at rest with separated
    · rw [except_bind_eq_ok] at rest
      obtain ⟨_, refused, _⟩ := rest
      cases refused
    · simp only [except_bind_eq_ok, identifier_eq_ok namePattern_solid,
        identifier_eq_ok documentIdPattern_solid] at rest
      obtain ⟨collection, named, documentId, document, done⟩ := rest
      cases done
      refine ⟨keys, tenant, fun member => ?_, named, document⟩
      exact separated (List.contains_iff_mem.mpr member)
  · intro described
    refine ⟨(), described.keys, accepted.tenantId, described.tenantId, ?_⟩
    rw [if_neg fun member => described.separated (List.contains_iff_mem.mp member)]
    simp only [except_bind_eq_ok, identifier_eq_ok namePattern_solid,
      identifier_eq_ok documentIdPattern_solid]
    exact ⟨accepted.collection, described.collection, accepted.documentId, described.documentId,
      rfl⟩

theorem parseIdentity_eq_ok {value : Json F} {accepted : EventIdentity table} :
    parseIdentity table value = .ok accepted ↔
      ∃ fields, value = .object fields ∧ DescribesIdentity fields accepted := by
  cases value with
  | object fields => simp only [parseIdentity_object, Json.object.injEq, exists_eq_left']
  | _ => exact iff_of_false nofun fun ⟨_, other, _⟩ => nomatch other

/-- The keys of a trace. -/
def traceKeys : List String := ["request_id", "correlation_id", "traceparent", "tracestate"]

/-- The fields of a trace. -/
structure DescribesTrace (fields : List (Text × Json F)) (trace : TraceMetadata table) :
    Prop where
  keys : ∀ field ∈ fields, field.1 ∈ traceKeys.map chars
  requestId : HoldsText (get fields "request_id") (trace.requestId.map SafeText.text)
  correlationId : HoldsText (get fields "correlation_id") (trace.correlationId.map SafeText.text)
  traceparent : HoldsText (get fields "traceparent") (trace.traceparent.map SafeText.text)
  valid : ∀ parent ∈ trace.traceparent, isTraceparent parent.text = true
  tracestate : HoldsText (get fields "tracestate") (trace.tracestate.map SafeText.text)

theorem parseTrace_object {fields : List (Text × Json F)} {accepted : TraceMetadata table} :
    parseTrace table (.object fields) = .ok accepted ↔ DescribesTrace fields accepted := by
  unfold parseTrace
  simp only [except_bind_eq_ok, refuseUnknown_eq_ok, safeOptionalText_eq_ok, traceparent_eq_ok]
  constructor
  · rintro ⟨-, keys, requestId, request, correlationId, correlation, parent, ⟨held, valid⟩,
      tracestate, state, done⟩
    cases done
    exact ⟨keys, request, correlation, held, valid, state⟩
  · intro described
    exact ⟨(), described.keys, _, described.requestId, _, described.correlationId, _,
      ⟨described.traceparent, described.valid⟩, _, described.tracestate, rfl⟩

theorem parseTrace_eq_ok {value : Json F} {accepted : TraceMetadata table} :
    parseTrace table value = .ok accepted ↔
      ∃ fields, value = .object fields ∧ DescribesTrace fields accepted := by
  cases value with
  | object fields => simp only [parseTrace_object, Json.object.injEq, exists_eq_left']
  | _ => exact iff_of_false nofun fun ⟨_, other, _⟩ => nomatch other

/-! ## Documents and events -/

section Values

variable [PyFloat F]

theorem jsonObject_eq_ok {value : Json F} {fieldName : String} {accepted : Document F} :
    jsonObject value fieldName = .ok accepted ↔
      Json.normalize (Json.held value) = some accepted.value := by
  unfold jsonObject refuse
  split
  next normalized decoded =>
    have same : Json.normalize (Json.held value) = some accepted.value ↔
        normalized = accepted.value := by rw [decoded, Option.some.injEq]
    rw [same]
    split_ifs with object
    · rw [Except.ok.injEq, Document.ext_iff]
    · refine iff_of_false nofun ?_
      rintro rfl
      exact object accepted.isObject
  next decoded =>
    rw [decoded]
    exact iff_of_false nofun nofun

/-- The document of an upsert. -/
structure DescribesDocument (value deleteFilter : Json F) (documentId : Text)
    (document : Document F) : Prop where
  filled : isFilledObject value = true
  matching : strOr (get (fieldsOf value) "id") "" = some documentId
  unfiltered : isNone deleteFilter = true
  normalized : Json.normalize (Json.held value) = some document.value

theorem parseDocument_eq_ok {value deleteFilter : Json F} {documentId : Text}
    {accepted : Document F} :
    parseDocument value deleteFilter documentId = .ok accepted ↔
      DescribesDocument value deleteFilter documentId accepted := by
  constructor
  · intro parsed
    unfold parseDocument refuse at parsed
    split_ifs at parsed with filled matching unfiltered
    exact ⟨filled, matching, unfiltered, jsonObject_eq_ok.mp parsed⟩
  · rintro ⟨filled, matching, unfiltered, normalized⟩
    unfold parseDocument
    rw [if_pos filled, if_pos matching, if_pos unfiltered]
    exact jsonObject_eq_ok.mpr normalized

/-- The filter of a deletion. -/
structure DescribesDeletion (value deleteFilter : Json F) (documentId : Text)
    (accepted : Option (SafeText table 1024)) : Prop where
  bare : isNone value = true
  filter : deleteFilter = accepted.elim .null fun safe => .str safe.text
  conjunction : ∀ safe ∈ accepted, tenantFilterDocumentId safe.text = some documentId

omit [PyFloat F] in
theorem isNone_iff {value : Json F} : isNone value = true ↔ value = .null := by
  cases value with
  | null => exact iff_of_true rfl rfl
  | _ => exact iff_of_false Bool.false_ne_true nofun

omit [PyFloat F] in
theorem parseDeletion_eq_ok {value deleteFilter : Json F} {documentId : Text}
    {accepted : Option (SafeText table 1024)} :
    parseDeletion table value deleteFilter documentId = .ok accepted ↔
      DescribesDeletion value deleteFilter documentId accepted := by
  constructor
  · intro parsed
    unfold parseDeletion refuse at parsed
    split_ifs at parsed with bare unfiltered
    · cases parsed
      exact ⟨bare, isNone_iff.mp unfiltered, nofun⟩
    · obtain ⟨safe, found, rfl⟩ := except_map_eq_ok.mp parsed
      unfold tenantDeleteFilter refuse at found
      obtain ⟨normalized, held, rest⟩ := except_bind_eq_ok.mp found
      split_ifs at rest with conjunction
      cases rest
      refine ⟨bare, safeText_eq_ok.mp held, fun own member => ?_⟩
      cases member
      exact conjunction
  · rintro ⟨bare, filter, conjunction⟩
    unfold parseDeletion
    rw [if_pos bare]
    cases accepted with
    | none => exact if_pos (isNone_iff.mpr filter)
    | some safe =>
        have given : ¬isNone deleteFilter = true := by
          rw [filter]
          exact Bool.false_ne_true
        rw [if_neg given]
        refine except_map_eq_ok.mpr ⟨safe, ?_, rfl⟩
        unfold tenantDeleteFilter
        refine except_bind_eq_ok.mpr ⟨safe, safeText_eq_ok.mpr filter, ?_⟩
        exact if_pos (conjunction safe rfl)

/-- The keys of an event. -/
def eventKeys : List String :=
  ["envelope_version", "event_id", "identity", "document_version", "sequence", "operation",
    "routing_revision", "rollout_id", "target_clusters", "occurred_at", "trace", "document",
    "delete_filter"]

/-- The check of `rollout_id`. -/
def parseRolloutId (value : Json F) :
    Except (EventEnvelopeError F) (Option (Identifier namePattern)) :=
  if isNone value then .ok none
  else (identifier value "rollout_id" namePattern).map some

/-- The checks of a document and a filter, as the operation has them. -/
def parseMutation (table : PrintableTable) (operation : Operation) (value deleteFilter : Json F)
    (documentId : Text) :
    Except (EventEnvelopeError F) (Option (Document F) × Option (SafeText table 1024)) :=
  match operation with
  | .upsert =>
    (parseDocument value deleteFilter documentId).map fun document => (some document, none)
  | _ => (parseDeletion table value deleteFilter documentId).map fun safe => (none, safe)

/-- The two checks of the parser are one. -/
theorem parseMutation_bind {γ : Type} {operation : Operation} {value deleteFilter : Json F}
    {documentId : Text}
    (rest : Option (Document F) → Option (SafeText table 1024) → Except (EventEnvelopeError F) γ) :
    (if operation = .upsert then do
      let document ← (parseDocument value deleteFilter documentId).map some
      if operation = .upsert then do
        let safe ← .ok none
        rest document safe
      else do
        let safe ← parseDeletion table value deleteFilter documentId
        rest document safe
    else do
      let document ← .ok none
      if operation = .upsert then do
        let safe ← .ok none
        rest document safe
      else do
        let safe ← parseDeletion table value deleteFilter documentId
        rest document safe) = (do
      let mutation ← parseMutation table operation value deleteFilter documentId
      rest mutation.1 mutation.2) := by
  cases operation with
  | upsert =>
      unfold parseMutation
      cases parseDocument value deleteFilter documentId with
      | error error => rfl
      | ok document => rfl
  | _ =>
      unfold parseMutation
      cases parseDeletion table value deleteFilter documentId with
      | error error => rfl
      | ok safe => rfl

/-- The parser with its last checks under names. -/
theorem parseV2_eq (otherFormats : Text → Option Moment) (payload : List (Text × Json F)) :
    parseV2 table otherFormats payload = (do
      refuseUnknown "v2 event" eventKeys payload
      let eventId ← identifier (get payload "event_id") "event_id" eventIdPattern
      let identity ← parseIdentity table (get payload "identity")
      let documentVersion ← positiveInt (get payload "document_version") "document_version"
      let sequence ← positiveInt (get payload "sequence") "sequence"
      let routingRevision ← positiveInt (get payload "routing_revision") "routing_revision"
      let some operation := parseOperation (get payload "operation") ""
        | refuse "operation must be one of upsert, delete, or tombstone"
      let rolloutId ← parseRolloutId (get payload "rollout_id")
      let targetClusters ← parseTargets (get payload "target_clusters")
      let distinct ← distinctTargets targetClusters
      let occurredAt ← timestamp otherFormats (get payload "occurred_at")
      let trace ← parseTrace table
        (if isNone (get payload "trace") then .object [] else get payload "trace")
      let mutation ← parseMutation table operation (get payload "document")
        (get payload "delete_filter") identity.documentId.text
      .ok
        { eventId, identity, documentVersion, sequence, operation, routingRevision, rolloutId,
          targetClusters, occurredAt, trace, document := mutation.1, deleteFilter := mutation.2
          targets_nodup := distinct.down }) := by
  unfold parseV2
  refine bind_congr fun _ => bind_congr fun eventId => bind_congr fun identity => bind_congr
    fun documentVersion => bind_congr fun sequence => bind_congr fun routingRevision => ?_
  cases parseOperation (get payload "operation") "" with
  | none => rfl
  | some operation =>
      unfold parseRolloutId
      simp only
      by_cases unrolled : isNone (get payload "rollout_id") = true
      · rw [if_pos unrolled, if_pos unrolled]
        exact bind_congr fun rolloutId => bind_congr fun targetClusters =>
          bind_congr fun distinct => bind_congr fun occurredAt => bind_congr fun trace =>
            parseMutation_bind _
      · rw [if_neg unrolled, if_neg unrolled]
        exact bind_congr fun rolloutId => bind_congr fun targetClusters =>
          bind_congr fun distinct => bind_congr fun occurredAt => bind_congr fun trace =>
            parseMutation_bind _

omit [PyFloat F] in
theorem parseRolloutId_eq_ok {value : Json F} {accepted : Option (Identifier namePattern)} :
    parseRolloutId value = .ok accepted ↔
      value = accepted.elim .null fun rolloutId => .str rolloutId.text := by
  unfold parseRolloutId
  split_ifs with missing
  · rw [isNone_iff.mp missing, Except.ok.injEq]
    cases accepted with
    | none => exact iff_of_true rfl rfl
    | some rolloutId => exact iff_of_false nofun nofun
  · rw [except_map_eq_ok]
    simp only [identifier_eq_ok namePattern_solid]
    constructor
    · rintro ⟨rolloutId, held, rfl⟩
      exact held
    · intro held
      cases accepted with
      | none => exact absurd (isNone_iff.mpr held) missing
      | some rolloutId => exact ⟨rolloutId, held, rfl⟩

/-- The document or the filter of an event. -/
def DescribesMutation (operation : Operation) (value deleteFilter : Json F) (documentId : Text)
    (document : Option (Document F)) (safe : Option (SafeText table 1024)) : Prop :=
  match operation with
  | .upsert => safe = none ∧
    ∃ own, document = some own ∧ DescribesDocument value deleteFilter documentId own
  | _ => document = none ∧ DescribesDeletion value deleteFilter documentId safe

theorem parseMutation_eq_ok {operation : Operation} {value deleteFilter : Json F}
    {documentId : Text} {accepted : Option (Document F) × Option (SafeText table 1024)} :
    parseMutation table operation value deleteFilter documentId = .ok accepted ↔
      DescribesMutation operation value deleteFilter documentId accepted.1 accepted.2 := by
  obtain ⟨document, safe⟩ := accepted
  cases operation with
  | upsert =>
      show (parseDocument value deleteFilter documentId).map _ = .ok _ ↔ _ ∧ _
      rw [except_map_eq_ok]
      simp only [parseDocument_eq_ok]
      constructor
      · rintro ⟨own, described, same⟩
        cases same
        exact ⟨rfl, own, rfl, described⟩
      · rintro ⟨rfl, own, rfl, described⟩
        exact ⟨own, described, rfl⟩
  | _ =>
      show (parseDeletion table value deleteFilter documentId).map _ = .ok _ ↔ _ ∧ _
      rw [except_map_eq_ok]
      simp only [parseDeletion_eq_ok]
      constructor
      · rintro ⟨own, described, same⟩
        cases same
        exact ⟨rfl, described⟩
      · rintro ⟨rfl, described⟩
        exact ⟨safe, described, rfl⟩

/-- **A payload that describes an event.** -/
structure DescribesEvent (otherFormats : Text → Option Moment) (payload : List (Text × Json F))
    (event : IndexingEventV2 table F) : Prop where
  keys : ∀ field ∈ payload, field.1 ∈ eventKeys.map chars
  eventId : get payload "event_id" = .str event.eventId.text
  identity : ∃ fields, get payload "identity" = .object fields ∧
    DescribesIdentity fields event.identity
  documentVersion : get payload "document_version" = .int event.documentVersion.value
  sequence : get payload "sequence" = .int event.sequence.value
  routingRevision : get payload "routing_revision" = .int event.routingRevision.value
  operation : parseOperation (get payload "operation") "" = some event.operation
  rolloutId : get payload "rollout_id" =
    event.rolloutId.elim .null fun rolloutId => .str rolloutId.text
  targetClusters : get payload "target_clusters" =
    .list (event.targetClusters.map fun target => .str target.text)
  addressed : event.targetClusters ≠ []
  occurredAt : timestamp otherFormats (get payload "occurred_at") = .ok event.occurredAt
  trace : ∃ fields, (if isNone (get payload "trace") then .object [] else get payload "trace") =
    .object fields ∧ DescribesTrace fields event.trace
  mutation : DescribesMutation event.operation (get payload "document")
    (get payload "delete_filter") event.identity.documentId.text event.document event.deleteFilter

/-- **The parser accepts an event** of exactly those payloads that describe it. -/
theorem parseV2_eq_ok {otherFormats : Text → Option Moment} {payload : List (Text × Json F)}
    {event : IndexingEventV2 table F} :
    parseV2 table otherFormats payload = .ok event ↔
      DescribesEvent otherFormats payload event := by
  rw [parseV2_eq]
  simp only [except_bind_eq_ok, refuseUnknown_eq_ok, identifier_eq_ok eventIdPattern_solid,
    parseIdentity_eq_ok, positiveInt_eq_ok]
  constructor
  · rintro ⟨-, keys, eventId, named, identity, identified, documentVersion, version, sequence,
      sequenced, routingRevision, revised, rest⟩
    cases operated : parseOperation (get payload "operation") "" with
    | none =>
        rw [operated] at rest
        cases rest
    | some operation =>
        rw [operated] at rest
        simp only [except_bind_eq_ok, parseRolloutId_eq_ok, parseTargets_eq_ok, parseTrace_eq_ok,
          parseMutation_eq_ok] at rest
        obtain ⟨rolloutId, rolled, targetClusters, ⟨targets, addressed⟩, distinct, -, occurredAt,
          occurred, trace, traced, ⟨document, safe⟩, mutation, done⟩ := rest
        cases done
        exact ⟨keys, named, identified, version, sequenced, revised, operated, rolled, targets,
          addressed, occurred, traced, mutation⟩
  · intro described
    refine ⟨(), described.keys, event.eventId, described.eventId, event.identity,
      described.identity, event.documentVersion, described.documentVersion, event.sequence,
      described.sequence, event.routingRevision, described.routingRevision, ?_⟩
    rw [described.operation]
    simp only [except_bind_eq_ok, parseRolloutId_eq_ok, parseTargets_eq_ok, parseTrace_eq_ok,
      parseMutation_eq_ok]
    refine ⟨event.rolloutId, described.rolloutId, event.targetClusters,
      ⟨described.targetClusters, described.addressed⟩, ⟨event.targets_nodup⟩,
      dif_pos event.targets_nodup, event.occurredAt, described.occurredAt, event.trace,
      described.trace, (event.document, event.deleteFilter), described.mutation, rfl⟩

end Values

end ImposbroSearch.Indexing.EventEnvelope
