import ImposbroSearch.ControlPlane.StateRecords
import ImposbroSearch.Indexing.EventDigest
import ImposbroSearch.Indexing.EventFields
import ImposbroSearch.Indexing.EventTimes
import ImposbroSearch.Indexing.KafkaValues

/-!
# Envelopes between the services

The API builds the envelope of an event, puts the trace of its own span into it and sends it
as JSON. The worker reads it again, with a parser and patterns of its own. What the worker
requires is stated of the draft here: exactly the events that meet it arrive, and they arrive
with everything the draft said, up to the order of the keys of the document.
-/

namespace ImposbroSearch.Indexing.EventEnvelope

open ImposbroSearch.Foundation ImposbroSearch.ControlPlane
open ImposbroSearch.ControlPlane.LegacyState (plainStyle dumps dumps_eq)

variable {table : PrintableTable} {F : Type}

/-! ## Drafts -/

/-- A text that JSON carries unchanged. -/
structure SettledText where
  text : Text
  settled : Settled text

/-- A dict of texts that carries a trace. -/
structure TraceCarrier where
  entries : List (Text × Text)
  nodup : (entries.map Prod.fst).Nodup
  settled : ∀ entry ∈ entries, Settled entry.1 ∧ Settled entry.2

namespace TraceCarrier

theorem foldl_setItem {entries other : List (Text × Text)}
    (nodup : (entries.map Prod.fst).Nodup)
    (settled : ∀ entry ∈ entries, Settled entry.1 ∧ Settled entry.2)
    (added : ∀ entry ∈ other, Settled entry.1 ∧ Settled entry.2) :
    ((other.foldl (fun fields entry => setItem fields entry.1 entry.2) entries).map
        Prod.fst).Nodup ∧
      ∀ entry ∈ other.foldl (fun fields entry => setItem fields entry.1 entry.2) entries,
        Settled entry.1 ∧ Settled entry.2 := by
  induction other generalizing entries with
  | nil => exact ⟨nodup, settled⟩
  | cons entry other ih =>
      rw [List.forall_mem_cons] at added
      refine ih (setItem_nodup nodup entry.1 entry.2) (fun own member => ?_) added.2
      rcases mem_of_mem_setItem member with before | rfl
      · exact settled own before
      · exact added.1

/-- `{**carrier, **other}` -/
def merge (carrier other : TraceCarrier) : TraceCarrier where
  entries :=
    other.entries.foldl (fun fields entry => setItem fields entry.1 entry.2) carrier.entries
  nodup := (foldl_setItem carrier.nodup carrier.settled other.settled).1
  settled := (foldl_setItem carrier.nodup carrier.settled other.settled).2

/-- The text of a key, if there is one that is not empty. -/
def given (carrier : TraceCarrier) (key : String) : Option Text :=
  (carrier.entries.lookup (chars key)).filter (· ≠ [])

end TraceCarrier

/-- `IndexingEventDraft`, without what only the outbox reads. A document is one that was read
from a request. -/
structure IndexingEventDraft (F : Type) where
  tenantId : Text
  collection : Text
  documentId : Text
  operation : Operation
  targetClusters : List Text
  routingRevision : ℤ
  rolloutId : Option Text
  trace : TraceCarrier
  document : Option (JsonValue F)
  deleteFilter : Option Text
  settled : ∀ text ∈ [tenantId, collection, documentId] ++ targetClusters ++ rolloutId.toList ++
    deleteFilter.toList, Settled text
  isObject : ∀ own ∈ document, isObject own.json = true
  deliverable : ∀ own ∈ document, Deliverable own.json

/-- A field that is left out where there is no value. -/
def optionalField (key : String) (value : Option (Json F)) : List (Text × Json F) :=
  (value.map fun value => (chars key, value)).toList

def traceJson (trace : TraceCarrier) : Json F :=
  .object (trace.entries.map fun entry => (entry.1, .str entry.2))

/-- The fields of an envelope before the document. -/
def envelopeFields (draft : IndexingEventDraft F) (eventId : SettledText) (sequence : ℤ)
    (occurredAt : Datetime) (trace : TraceCarrier) : List (Text × Json F) :=
  [(chars "envelope_version", .int 2),
    (chars "event_id", .str eventId.text),
    (chars "identity", .object
      [(chars "tenant_id", .str draft.tenantId),
        (chars "collection", .str draft.collection),
        (chars "document_id", .str draft.documentId)]),
    (chars "document_version", .int sequence),
    (chars "sequence", .int sequence),
    (chars "operation", .str (operationText draft.operation)),
    (chars "routing_revision", .int draft.routingRevision),
    (chars "rollout_id", optionalText draft.rolloutId),
    (chars "target_clusters", .list (draft.targetClusters.map .str)),
    (chars "occurred_at", .str occurredAt.isoformat),
    (chars "trace", traceJson trace)]

/-- An envelope with a given trace. -/
def envelopeWith (draft : IndexingEventDraft F) (eventId : SettledText) (sequence : ℤ)
    (occurredAt : Datetime) (trace : TraceCarrier) : List (Text × Json F) :=
  envelopeFields draft eventId sequence occurredAt trace ++
    optionalField "document" (draft.document.map JsonValue.json) ++
    optionalField "delete_filter" (draft.deleteFilter.map .str)

/-- `build_event_payload` -/
def buildEventPayload (draft : IndexingEventDraft F) (eventId : SettledText) (sequence : ℤ)
    (occurredAt : Datetime) : List (Text × Json F) :=
  envelopeWith draft eventId sequence occurredAt draft.trace

/-- The message of `_send_with_trace`: the durable payload, with the trace of the span that
publishes it. -/
def outbound (draft : IndexingEventDraft F) (eventId : SettledText) (sequence : ℤ)
    (occurredAt : Datetime) (propagated : TraceCarrier) : List (Text × Json F) :=
  setItem (buildEventPayload draft eventId sequence occurredAt) (chars "trace")
    (traceJson (draft.trace.merge propagated))

/-- `kafka_key` of a prepared event. -/
def IndexingEventDraft.kafkaKey (draft : IndexingEventDraft F) : Option (List ℕ) :=
  utf8Encode ([31].intercalate [draft.tenantId, draft.collection, draft.documentId])

/-- `_validate_kafka_key` -/
def validateKafkaKey (identity : EventIdentity table) (messageKey : Option (List ℕ)) : Bool :=
  match messageKey with
  | none => false
  | some actualKey => utf8Encode identity.logicalKey = some actualKey

section Sending

variable [PyFloat F]

/-- The key and the value that the producer sends. -/
def sendWithTrace (draft : IndexingEventDraft F) (eventId : SettledText) (sequence : ℤ)
    (occurredAt : Datetime) (propagated : TraceCarrier) : Option (List ℕ × List ℕ) :=
  draft.kafkaKey.bind fun key =>
    (valueSerializer (.object (outbound draft eventId sequence occurredAt propagated))).map
      fun value => (key, value)

variable (table) (otherFormats : Text → Option Moment)

/-- The event that the worker goes on with: the record is decoded and parsed, and its key is
compared with that of the event. -/
def receiveEvent (allowLegacy : Bool) (messageKey rawValue : Option (List ℕ)) :
    Option (ParsedIndexingEvent table F) :=
  (decodeKafkaValue rawValue).toOption.bind fun message =>
    (parseIndexingEvent table otherFormats allowLegacy message).toOption.bind fun parsed =>
      match parsed with
      | .legacy event => some (.legacy event)
      | .v2 event => if validateKafkaKey event.identity messageKey then some (.v2 event) else none

variable (draft : IndexingEventDraft F) (eventId : SettledText) (sequence : ℤ)
  (occurredAt : Datetime) (propagated : TraceCarrier)

/-- An event from the producer to the worker. -/
def deliverEvent (allowLegacy : Bool) : Option (ParsedIndexingEvent table F) :=
  (sendWithTrace draft eventId sequence occurredAt propagated).bind fun sent =>
    receiveEvent table otherFormats allowLegacy (some sent.1) (some sent.2)

end Sending

/-! ## What the worker requires -/

/-- A text that `_safe_text` accepts. -/
structure IsSafeText (table : PrintableTable) (maximum : ℕ) (text : Text) : Prop where
  stripped : stripText text = text
  filled : text ≠ []
  short : text.length ≤ maximum
  printable : ∀ c ∈ text, table.printable c = true

section Requirements

variable [PyFloat F]

/-- The document of an upsert is an object with the id of the event and without constants; a
deletion has a filter for that id, or none. -/
def AdmissibleMutation (table : PrintableTable) (draft : IndexingEventDraft F) : Prop :=
  match draft.operation with
  | .upsert => draft.deleteFilter = none ∧
    ∃ own, draft.document = some own ∧ isFilledObject own.json = true ∧
      strOr (get (fieldsOf own.json) "id") "" = some draft.documentId ∧ own.json.Dumpable
  | _ => draft.document = none ∧ ∀ text ∈ draft.deleteFilter,
    IsSafeText table 1024 text ∧ tenantFilterDocumentId text = some draft.documentId

/-- **What the worker requires** of an event, in terms of its draft. -/
structure Admissible (table : PrintableTable) (draft : IndexingEventDraft F) (eventId : SettledText)
    (sequence : ℤ) (trace : TraceCarrier) : Prop where
  eventId : eventIdPattern.fullmatch eventId.text = true
  tenantId : IsSafeText table 256 draft.tenantId
  separated : 31 ∉ draft.tenantId
  collection : namePattern.fullmatch draft.collection = true
  documentId : documentIdPattern.fullmatch draft.documentId = true
  sequence : 1 ≤ sequence ∧ sequence ≤ maxInt64
  routingRevision : 1 ≤ draft.routingRevision ∧ draft.routingRevision ≤ maxInt64
  rolloutId : ∀ rolloutId ∈ draft.rolloutId, namePattern.fullmatch rolloutId = true
  addressed : draft.targetClusters ≠ []
  targetClusters : ∀ target ∈ draft.targetClusters, namePattern.fullmatch target = true
  distinct : draft.targetClusters.Nodup
  traceKeys : ∀ entry ∈ trace.entries, entry.1 ∈ traceKeys.map chars
  requestId : ∀ text ∈ trace.given "request_id", IsSafeText table 1024 text
  correlationId : ∀ text ∈ trace.given "correlation_id", IsSafeText table 1024 text
  traceparent : ∀ text ∈ trace.given "traceparent",
    IsSafeText table 55 text ∧ isTraceparent text = true
  tracestate : ∀ text ∈ trace.given "tracestate", IsSafeText table 1024 text
  mutation : AdmissibleMutation table draft

end Requirements

/-- **An event says what its draft says**, up to the order of the keys of the document. -/
structure Carries (draft : IndexingEventDraft F) (eventId : SettledText) (sequence : ℤ)
    (occurredAt : Datetime) (trace : TraceCarrier) (event : IndexingEventV2 table F) : Prop where
  eventId : event.eventId.text = eventId.text
  tenantId : event.identity.tenantId.text = draft.tenantId
  collection : event.identity.collection.text = draft.collection
  documentId : event.identity.documentId.text = draft.documentId
  documentVersion : event.documentVersion.value = sequence
  sequence : event.sequence.value = sequence
  operation : event.operation = draft.operation
  routingRevision : event.routingRevision.value = draft.routingRevision
  rolloutId : event.rolloutId.map Identifier.text = draft.rolloutId
  targetClusters : event.targetClusters.map Identifier.text = draft.targetClusters
  occurredAt : event.occurredAt = occurredAt
  requestId : event.trace.requestId.map SafeText.text = trace.given "request_id"
  correlationId : event.trace.correlationId.map SafeText.text = trace.given "correlation_id"
  traceparent : event.trace.traceparent.map SafeText.text = trace.given "traceparent"
  tracestate : event.trace.tracestate.map SafeText.text = trace.given "tracestate"
  document : event.document.map (·.value.json) = draft.document.map fun own => own.json.sortKeys
  deleteFilter : event.deleteFilter.map SafeText.text = draft.deleteFilter

/-! ## The fields of an envelope -/

section Envelope

variable {draft : IndexingEventDraft F} {eventId : SettledText} {sequence : ℤ}
  {occurredAt : Datetime} {trace : TraceCarrier}

/-- The keys of an envelope with a document or a filter, or without. -/
def envelopeKeys (document deleteFilter : Bool) : List Text :=
  (eventKeys.take 11).map chars ++ (if document then [chars "document"] else []) ++
    (if deleteFilter then [chars "delete_filter"] else [])

theorem envelopeKeys_nodup :
    ∀ document deleteFilter, (envelopeKeys document deleteFilter).Nodup := by
  decide

theorem envelopeKeys_subset : ∀ document deleteFilter, ∀ key ∈ envelopeKeys document deleteFilter,
    key ∈ eventKeys.map chars := by
  decide

theorem keys_envelopeWith : (envelopeWith draft eventId sequence occurredAt trace).map Prod.fst =
    envelopeKeys draft.document.isSome draft.deleteFilter.isSome := by
  unfold envelopeWith
  cases draft.document with
  | none =>
      cases draft.deleteFilter with
      | none => rfl
      | some text => rfl
  | some own =>
      cases draft.deleteFilter with
      | none => rfl
      | some text => rfl

/-- The trace that is sent is the one of the span; the rest is the durable payload. -/
theorem outbound_eq (propagated : TraceCarrier) :
    outbound draft eventId sequence occurredAt propagated =
      envelopeWith draft eventId sequence occurredAt (draft.trace.merge propagated) := by
  unfold outbound buildEventPayload envelopeWith
  cases draft.document with
  | none =>
      cases draft.deleteFilter with
      | none => rfl
      | some text => rfl
  | some own =>
      cases draft.deleteFilter with
      | none => rfl
      | some text => rfl

theorem get_document : get (envelopeWith draft eventId sequence occurredAt trace) "document" =
    (draft.document.map JsonValue.json).getD .null := by
  unfold envelopeWith
  cases draft.document with
  | none =>
      cases draft.deleteFilter with
      | none => rfl
      | some text => rfl
  | some own => rfl

theorem get_deleteFilter :
    get (envelopeWith draft eventId sequence occurredAt trace) "delete_filter" =
      optionalText draft.deleteFilter := by
  unfold envelopeWith
  cases draft.document with
  | none =>
      cases draft.deleteFilter with
      | none => rfl
      | some text => rfl
  | some own =>
      cases draft.deleteFilter with
      | none => rfl
      | some text => rfl

/-- What holds of every part of an envelope. -/
theorem forall_parts_envelope {P : JsonPart F → Prop}
    (keys : ∀ listed : List Text, listed.Nodup → P (.keys listed))
    (texts : ∀ text, Settled text → P (.text text))
    (ints : ∀ n ∈ [2, sequence, draft.routingRevision], P (.int n))
    (documents : ∀ own ∈ draft.document, ∀ part ∈ own.json.parts, P part) :
    ∀ part ∈ (Json.object (envelopeWith draft eventId sequence occurredAt trace)).parts,
      P part := by
  have word : ∀ word : String, (∀ c ∈ chars word, c < 128) → P (.text (chars word)) :=
    fun word small => texts _ (settled_of_scalar (isScalarText_of_ascii small))
  have text : ∀ text, Settled text → ∀ part ∈ (Json.str text : Json F).parts, P part :=
    fun text settled => forall_parts_str.mpr (texts text settled)
  have int : ∀ n ∈ [2, sequence, draft.routingRevision], ∀ part ∈ (Json.int n : Json F).parts,
      P part := fun n member => forall_parts_int.mpr (ints n member)
  have nothing : ∀ field ∈ ([] : List (Text × Json F)), P (.text field.1) ∧
      ∀ part ∈ field.2.parts, P part := fun _ member => absurd member List.not_mem_nil
  have own : ∀ text ∈ [draft.tenantId, draft.collection, draft.documentId] ++
      draft.targetClusters ++ draft.rolloutId.toList ++ draft.deleteFilter.toList, Settled text :=
    draft.settled
  simp only [List.forall_mem_append, List.forall_mem_cons, Option.mem_toList] at own
  obtain ⟨⟨⟨⟨tenantId, collection, documentId, -⟩, targets⟩, rolloutId⟩, deleteFilter⟩ := own
  have identity : ∀ part ∈ (Json.object
      [(chars "tenant_id", .str draft.tenantId), (chars "collection", .str draft.collection),
        (chars "document_id", .str draft.documentId)] : Json F).parts, P part := by
    rw [Json.forall_parts_object]
    simp only [List.forall_mem_cons]
    exact ⟨keys identityKeys identityKeys_nodup, ⟨word _ (by decide), text _ tenantId⟩,
      ⟨word _ (by decide), text _ collection⟩, ⟨word _ (by decide), text _ documentId⟩, nothing⟩
  have clusters : ∀ part ∈ (Json.list (draft.targetClusters.map .str) : Json F).parts, P part := by
    rw [Json.forall_parts_list, List.forall_mem_map]
    exact fun target member => text target (targets target member)
  have carried : ∀ part ∈ (traceJson trace : Json F).parts, P part := by
    unfold traceJson
    rw [Json.forall_parts_object, List.map_map, List.forall_mem_map]
    exact ⟨keys _ trace.nodup, fun entry member =>
      ⟨texts _ (trace.settled entry member).1, text _ (trace.settled entry member).2⟩⟩
  have time : Settled occurredAt.isoformat := settled_of_scalar (isScalarText_of_ascii
    fun c member => (isoformat_lt occurredAt c member).trans (by norm_num))
  have operation : Settled (operationText draft.operation) := by
    refine settled_of_scalar (isScalarText_of_ascii ?_)
    cases draft.operation with
    | upsert => decide
    | delete => decide
    | tombstone => decide
  rw [Json.forall_parts_object, keys_envelopeWith]
  refine ⟨keys _ (envelopeKeys_nodup _ _), ?_⟩
  unfold envelopeWith envelopeFields
  simp only [List.forall_mem_append, List.forall_mem_cons]
  refine ⟨⟨⟨⟨word _ (by decide), int 2 (by simp)⟩, ⟨word _ (by decide), text _ eventId.settled⟩,
    ⟨word _ (by decide), identity⟩, ⟨word _ (by decide), int sequence (by simp)⟩,
    ⟨word _ (by decide), int sequence (by simp)⟩, ⟨word _ (by decide), text _ operation⟩,
    ⟨word _ (by decide), int draft.routingRevision (by simp)⟩,
    ⟨word _ (by decide),
      forall_parts_optionalText.mpr fun own member => texts own (rolloutId own member)⟩,
    ⟨word _ (by decide), clusters⟩, ⟨word _ (by decide), text _ time⟩,
    ⟨word _ (by decide), carried⟩, nothing⟩, ?_⟩, ?_⟩
  · cases held : draft.document with
    | none => exact nothing
    | some own => exact List.forall_mem_cons.mpr ⟨⟨word _ (by decide), documents own held⟩, nothing⟩
  · cases held : draft.deleteFilter with
    | none => exact nothing
    | some safe =>
        exact List.forall_mem_cons.mpr
          ⟨⟨word _ (by decide), text safe (deleteFilter safe held)⟩, nothing⟩

theorem unique_envelope :
    (Json.object (envelopeWith draft eventId sequence occurredAt trace)).Unique := by
  refine Json.unique_iff.mpr (forall_parts_envelope ?_ ?_ ?_ ?_)
  · exact fun _ distinct => distinct
  · exact fun _ _ => trivial
  · exact fun _ _ => trivial
  · exact fun own _ => Json.unique_iff.mp own.unique

theorem isSettled_envelope :
    (Json.object (envelopeWith draft eventId sequence occurredAt trace)).IsSettled := by
  refine Json.isSettled_iff.mpr (forall_parts_envelope ?_ ?_ ?_ ?_)
  · exact fun _ _ _ same => by cases same
  · rintro text settled own same
    cases same
    exact settled
  · exact fun _ _ _ same => by cases same
  · exact fun own member => Json.isSettled_iff.mp (draft.deliverable own member).settled

theorem short_envelope [PyFloat F]
    (short : ∀ n ∈ [2, sequence, draft.routingRevision], (natText n.natAbs).length ≤ maxStrDigits) :
    Json.ShortIntegers
      (Json.object (envelopeWith draft eventId sequence occurredAt trace)).parts := by
  refine Json.shortIntegers_iff.mpr (forall_parts_envelope ?_ ?_ ?_ ?_)
  · exact fun _ _ _ same => by cases same
  · exact fun _ _ _ same => by cases same
  · rintro n member own same
    cases same
    exact short n member
  · exact fun own member => Json.shortIntegers_iff.mp (draft.deliverable own member).short

/-- The envelope as Python holds it. -/
def envelope (draft : IndexingEventDraft F) (eventId : SettledText) (sequence : ℤ)
    (occurredAt : Datetime) (trace : TraceCarrier) : JsonValue F :=
  ⟨.object (envelopeWith draft eventId sequence occurredAt trace), unique_envelope⟩

/-! ## What is received -/

variable [PyFloat F] {otherFormats : Text → Option Moment} {allowLegacy : Bool}

/-- **An envelope that was sent** is received as the event that it describes. -/
theorem receiveEvent_sent {value : List ℕ} {messageKey : Option (List ℕ)}
    {parsed : ParsedIndexingEvent table F}
    (sent : valueSerializer (envelope draft eventId sequence occurredAt trace).json = some value) :
    receiveEvent table otherFormats allowLegacy messageKey (some value) = some parsed ↔
      ∃ event, parsed = .v2 event ∧ validateKafkaKey event.identity messageKey = true ∧
        DescribesEvent otherFormats
          (envelopeWith draft eventId sequence occurredAt trace) event := by
  have short :
      Json.ShortIntegers (envelope draft eventId sequence occurredAt trace).json.parts := by
    obtain ⟨text, dumped, -⟩ := Option.bind_eq_some_iff.mp sent
    exact (dumps_eq dumped).2
  have decoded := decodeKafkaValue_sent ⟨isSettled_envelope, short⟩ rfl
  rw [sent] at decoded
  have parsing : parseIndexingEvent table otherFormats allowLegacy
      (envelope draft eventId sequence occurredAt trace) =
        (parseV2 table otherFormats
          (envelopeWith draft eventId sequence occurredAt trace)).map
            (ParsedIndexingEvent.v2 : _ → ParsedIndexingEvent table F) := rfl
  unfold receiveEvent
  rw [decoded]
  show (parseIndexingEvent table otherFormats allowLegacy
    (envelope draft eventId sequence occurredAt trace)).toOption.bind _ = _ ↔ _
  rw [parsing]
  simp only [← parseV2_eq_ok]
  -- a legacy event is out of the question: the version is there
  cases parseV2 table otherFormats (envelopeWith draft eventId sequence occurredAt trace) with
  | error error =>
      refine iff_of_false (fun received => by cases received) ?_
      rintro ⟨event, -, -, other⟩
      cases other
  | ok event =>
      show (if validateKafkaKey event.identity messageKey then
        some (ParsedIndexingEvent.v2 event) else none) = _ ↔ _
      constructor
      · intro received
        split_ifs at received with valid
        cases received
        exact ⟨event, rfl, valid, rfl⟩
      · rintro ⟨own, rfl, valid, same⟩
        cases same
        exact if_pos valid

/-! ## Both sides -/

theorem isSafeText_text {maximum : ℕ} (safe : SafeText table maximum) :
    IsSafeText table maximum safe.text :=
  ⟨safe.stripped, safe.length_pos, safe.length_le, safe.printable⟩

/-- A text that passes its check is the text of the field. -/
theorem exists_map_safeText {maximum : ℕ} {text : Option Text}
    (safe : ∀ own ∈ text, IsSafeText table maximum own) :
    ∃ accepted : Option (SafeText table maximum), accepted.map SafeText.text = text := by
  cases text with
  | none => exact ⟨none, rfl⟩
  | some own =>
      obtain ⟨stripped, filled, short, printable⟩ := safe own rfl
      exact ⟨some ⟨own, stripped, filled, short, printable⟩, rfl⟩

theorem exists_map_identifier {pattern : NamePattern} {text : Option Text}
    (matched : ∀ own ∈ text, pattern.fullmatch own = true) :
    ∃ accepted : Option (Identifier pattern), accepted.map Identifier.text = text := by
  cases text with
  | none => exact ⟨none, rfl⟩
  | some own => exact ⟨some ⟨own, matched own rfl⟩, rfl⟩

theorem exists_identifiers {pattern : NamePattern} {texts : List Text}
    (matched : ∀ text ∈ texts, pattern.fullmatch text = true) :
    ∃ accepted : List (Identifier pattern), accepted.map Identifier.text = texts := by
  have within : texts ∈ Set.range (List.map fun own : Identifier pattern => own.text) := by
    rw [Set.range_list_map]
    exact fun text member => ⟨⟨text, matched text member⟩, rfl⟩
  exact within

omit [PyFloat F] in
theorem holdsText_get {maximum : ℕ} {key : String} {accepted : Option (SafeText table maximum)} :
    HoldsText (get (trace.entries.map fun entry => (entry.1, Json.str (F := F) entry.2)) key)
      (accepted.map SafeText.text) ↔ accepted.map SafeText.text = trace.given key := by
  unfold get TraceCarrier.given
  rw [lookup_map (Json.str (F := F))]
  cases trace.entries.lookup (chars key) with
  | none =>
      cases accepted with
      | none => exact iff_of_true rfl rfl
      | some safe => exact iff_of_false nofun nofun
  | some text =>
      cases text with
      | nil =>
          cases accepted with
          | none => exact iff_of_true rfl rfl
          | some safe =>
              refine iff_of_false (fun held => ?_) nofun
              exact safe.length_pos (Json.str.inj held).symm
      | cons c rest =>
          cases accepted with
          | none => exact iff_of_false nofun nofun
          | some safe =>
              show Json.str (c :: rest) = Json.str safe.text ↔ some safe.text = some (c :: rest)
              rw [Json.str.injEq, Option.some.injEq]
              exact eq_comm

omit [PyFloat F] in
theorem optionalText_map {α : Type} (text : α → Text) (accepted : Option α) :
    optionalText (F := F) (accepted.map text) = accepted.elim .null fun own => .str (text own) := by
  cases accepted with
  | none => rfl
  | some own => rfl

/-- A document of a draft is normalized to itself, with its keys sorted. -/
theorem normalize_document {own : JsonValue F} {document : Document F} :
    Json.normalize (Json.held own.json) = some document.value ↔
      own.json.Dumpable ∧ document.value.json = own.json.sortKeys := by
  have held : Json.held own.json = own := JsonValue.ext (Json.dicts_of_unique own.unique)
  rw [held]
  by_cases dumpable : own.json.Dumpable
  · rw [Json.normalize_eq dumpable, Option.some.injEq, JsonValue.ext_iff]
    exact ⟨fun same => ⟨dumpable, same.symm⟩, fun both => both.2.symm⟩
  · rw [Json.normalize_eq_none dumpable]
    exact iff_of_false nofun fun both => dumpable both.1

theorem parseOperation_operationText (operation : Operation) :
    parseOperation (.str (operationText operation) : Json F) "" = some operation := by
  cases operation with
  | upsert => rfl
  | delete => rfl
  | tombstone => rfl

omit [PyFloat F] in
theorem isSafeText_of_map {maximum : ℕ} {accepted : Option (SafeText table maximum)}
    {text : Option Text} (same : accepted.map SafeText.text = text) :
    ∀ own ∈ text, IsSafeText table maximum own := by
  rw [← same]
  intro own member
  obtain ⟨safe, -, rfl⟩ := Option.map_eq_some_iff.mp member
  exact isSafeText_text safe

/-! ## Mutations -/

omit [PyFloat F] in
theorem deletion_of_describes {safe : Option (SafeText table 1024)}
    (described : DescribesDeletion ((draft.document.map JsonValue.json).getD .null)
      (optionalText draft.deleteFilter) draft.documentId safe) :
    draft.document = none ∧ safe.map SafeText.text = draft.deleteFilter ∧
      ∀ text ∈ draft.deleteFilter,
        IsSafeText table 1024 text ∧ tenantFilterDocumentId text = some draft.documentId := by
  obtain ⟨bare, filter, conjunction⟩ := described
  have filters : safe.map SafeText.text = draft.deleteFilter := by
    rw [← optionalText_map SafeText.text] at filter
    exact optionalText_injective filter.symm
  refine ⟨?_, filters, ?_⟩
  · cases held : draft.document with
    | none => rfl
    | some own =>
        -- a document is an object, and a deletion has none
        rw [held] at bare
        have object := draft.isObject own held
        have empty : own.json = .null := isNone_iff.mp bare
        rw [empty] at object
        cases object
  · rw [← filters]
    intro text member
    obtain ⟨own, accepted, rfl⟩ := Option.map_eq_some_iff.mp member
    exact ⟨isSafeText_text own, conjunction own accepted⟩

omit [PyFloat F] in
theorem exists_describes_deletion (documents : draft.document = none)
    (filters : ∀ text ∈ draft.deleteFilter,
      IsSafeText table 1024 text ∧ tenantFilterDocumentId text = some draft.documentId) :
    ∃ safe : Option (SafeText table 1024), DescribesDeletion
      ((draft.document.map JsonValue.json).getD .null) (optionalText draft.deleteFilter)
      draft.documentId safe := by
  obtain ⟨safe, same⟩ := exists_map_safeText fun text member => (filters text member).1
  refine ⟨safe, ?_, ?_, ?_⟩
  · rw [documents]
    rfl
  · rw [← same, optionalText_map]
  · exact fun own member => (filters own.text (same ▸ Option.mem_map_of_mem _ member)).2

theorem upsert_of_describes {document : Document F}
    (described : DescribesDocument ((draft.document.map JsonValue.json).getD .null)
      (optionalText draft.deleteFilter) draft.documentId document) :
    draft.deleteFilter = none ∧ ∃ own, draft.document = some own ∧
      (isFilledObject own.json = true ∧
        strOr (get (fieldsOf own.json) "id") "" = some draft.documentId ∧ own.json.Dumpable) ∧
      document.value.json = own.json.sortKeys := by
  obtain ⟨filled, matching, bare, normalized⟩ := described
  have filters : draft.deleteFilter = none := by
    cases given : draft.deleteFilter with
    | none => rfl
    | some text =>
        rw [given] at bare
        cases bare
  cases held : draft.document with
  | none =>
      rw [held] at filled
      cases filled
  | some own =>
      rw [held] at filled matching normalized
      obtain ⟨dumpable, sorted⟩ := normalize_document.mp normalized
      exact ⟨filters, own, rfl, ⟨filled, matching, dumpable⟩, sorted⟩

/-- The mutation of a described envelope. -/
theorem mutation_of_describes {event : IndexingEventV2 table F}
    (described : DescribesMutation draft.operation
      (get (envelopeWith draft eventId sequence occurredAt trace) "document")
      (get (envelopeWith draft eventId sequence occurredAt trace) "delete_filter")
      draft.documentId event.document event.deleteFilter) :
    AdmissibleMutation table draft ∧
      event.document.map (·.value.json) = draft.document.map (fun own => own.json.sortKeys) ∧
        event.deleteFilter.map SafeText.text = draft.deleteFilter := by
  rw [get_document, get_deleteFilter] at described
  unfold AdmissibleMutation
  cases held : draft.operation with
  | upsert =>
      rw [held] at described
      obtain ⟨unfiltered, document, taken, upsert⟩ := described
      obtain ⟨filters, own, source, ⟨filled, matching, dumpable⟩, sorted⟩ :=
        upsert_of_describes upsert
      refine ⟨⟨filters, own, source, filled, matching, dumpable⟩, ?_, ?_⟩
      · rw [taken, source]
        exact congrArg some sorted
      · rw [unfiltered, filters]
        rfl
  | _ =>
      rw [held] at described
      obtain ⟨none, deletion⟩ := described
      obtain ⟨documents, filters, safe⟩ := deletion_of_describes deletion
      refine ⟨⟨documents, safe⟩, ?_, filters⟩
      rw [none, documents]
      rfl

/-- What the worker requires of a mutation is enough. -/
theorem exists_describes_mutation (admissible : AdmissibleMutation table draft) :
    ∃ (document : Option (Document F)) (safe : Option (SafeText table 1024)),
      DescribesMutation draft.operation
      (get (envelopeWith draft eventId sequence occurredAt trace) "document")
      (get (envelopeWith draft eventId sequence occurredAt trace) "delete_filter")
      draft.documentId document safe := by
  rw [get_document, get_deleteFilter]
  unfold AdmissibleMutation at admissible
  cases held : draft.operation with
  | upsert =>
      rw [held] at admissible
      obtain ⟨unfiltered, own, document, filled, matching, dumpable⟩ := admissible
      have object : isObject own.json.sortKeys = true := by
        rw [ControlPlane.AuditStore.isObject_sortKeys]
        exact draft.isObject own document
      rw [document, unfiltered]
      exact ⟨some ⟨⟨own.json.sortKeys, Json.unique_sortKeys.mpr own.unique⟩, object,
        Json.dumpable_sortKeys.mpr dumpable⟩, none, rfl, _, rfl, filled, matching, rfl,
        normalize_document.mpr ⟨dumpable, rfl⟩⟩
  | _ =>
      rw [held] at admissible
      obtain ⟨safe, described⟩ := exists_describes_deletion admissible.1 admissible.2
      exact ⟨none, safe, rfl, described⟩

/-! ## Events -/

namespace DescribesEvent

variable {event : IndexingEventV2 table F}

theorem identity_envelope (described : DescribesEvent otherFormats
      (envelopeWith draft eventId sequence occurredAt trace) event) :
    DescribesIdentity [(chars "tenant_id", Json.str (F := F) draft.tenantId),
      (chars "collection", .str draft.collection), (chars "document_id", .str draft.documentId)]
      event.identity := by
  obtain ⟨fields, same, identity⟩ := described.identity
  obtain rfl : _ = fields := Json.object.inj same
  exact identity

theorem trace_envelope (described : DescribesEvent otherFormats
      (envelopeWith draft eventId sequence occurredAt trace) event) :
    DescribesTrace (trace.entries.map fun entry => (entry.1, Json.str (F := F) entry.2))
      event.trace := by
  obtain ⟨fields, same, traced⟩ := described.trace
  obtain rfl : _ = fields := Json.object.inj same
  exact traced

theorem operation_envelope (described : DescribesEvent otherFormats
      (envelopeWith draft eventId sequence occurredAt trace) event) :
    event.operation = draft.operation := by
  have operated : parseOperation (.str (operationText draft.operation) : Json F) "" =
      some event.operation := described.operation
  rw [parseOperation_operationText] at operated
  exact (Option.some.inj operated).symm

theorem mutation_envelope (described : DescribesEvent otherFormats
      (envelopeWith draft eventId sequence occurredAt trace) event) :
    AdmissibleMutation table draft ∧
      event.document.map (·.value.json) = draft.document.map (fun own => own.json.sortKeys) ∧
        event.deleteFilter.map SafeText.text = draft.deleteFilter := by
  have documentIds : draft.documentId = event.identity.documentId.text :=
    Json.str.inj described.identity_envelope.documentId
  have mutation := described.mutation
  rw [described.operation_envelope, ← documentIds] at mutation
  exact mutation_of_describes mutation

/-- **The event of a described envelope** says what the draft says. -/
theorem carries (described : DescribesEvent otherFormats
      (envelopeWith draft eventId sequence occurredAt trace) event) :
    Carries draft eventId sequence occurredAt trace event := by
  have identity := described.identity_envelope
  have traced := described.trace_envelope
  obtain ⟨-, documents, filters⟩ := described.mutation_envelope
  have times : event.occurredAt = occurredAt := by
    have time : timestamp otherFormats (.str occurredAt.isoformat : Json F) =
        .ok event.occurredAt := described.occurredAt
    rw [timestamp_isoformat] at time
    exact (Except.ok.inj time).symm
  have rollouts : event.rolloutId.map Identifier.text = draft.rolloutId := by
    have same : optionalText (F := F) draft.rolloutId =
        event.rolloutId.elim .null fun rolloutId => .str rolloutId.text := described.rolloutId
    rw [← optionalText_map Identifier.text] at same
    exact (optionalText_injective same).symm
  have clusters : event.targetClusters.map Identifier.text = draft.targetClusters := by
    have same : draft.targetClusters.map Json.str =
        event.targetClusters.map fun target => Json.str (F := F) target.text :=
      Json.list.inj described.targetClusters
    have texts : (event.targetClusters.map Identifier.text).map (Json.str (F := F)) =
        draft.targetClusters.map Json.str := by
      rw [same, List.map_map]
      rfl
    exact List.map_injective_iff.mpr (fun _ _ => Json.str.inj) texts
  exact ⟨(Json.str.inj described.eventId).symm, (Json.str.inj identity.tenantId).symm,
    (Json.str.inj identity.collection).symm, (Json.str.inj identity.documentId).symm,
    (Json.int.inj described.documentVersion).symm, (Json.int.inj described.sequence).symm,
    described.operation_envelope, (Json.int.inj described.routingRevision).symm, rollouts,
    clusters, times, holdsText_get.mp traced.requestId, holdsText_get.mp traced.correlationId,
    holdsText_get.mp traced.traceparent, holdsText_get.mp traced.tracestate, documents, filters⟩

/-- **A described envelope** meets the requirements: the types of the event say so. -/
theorem admissible (described : DescribesEvent otherFormats
      (envelopeWith draft eventId sequence occurredAt trace) event) :
    Admissible table draft eventId sequence trace := by
  have carries := described.carries
  constructor
  · rw [← carries.eventId]
    exact event.eventId.matched
  · rw [← carries.tenantId]
    exact isSafeText_text _
  · rw [← carries.tenantId]
    exact described.identity_envelope.separated
  · rw [← carries.collection]
    exact event.identity.collection.matched
  · rw [← carries.documentId]
    exact event.identity.documentId.matched
  · rw [← carries.sequence]
    exact event.sequence.bounds
  · rw [← carries.routingRevision]
    exact event.routingRevision.bounds
  · rw [← carries.rolloutId]
    intro own member
    obtain ⟨rolloutId, -, rfl⟩ := Option.map_eq_some_iff.mp member
    exact rolloutId.matched
  · rw [← carries.targetClusters]
    exact fun none => described.addressed (List.map_eq_nil_iff.mp none)
  · rw [← carries.targetClusters, List.forall_mem_map]
    exact fun target _ => target.matched
  · rw [← carries.targetClusters]
    exact (List.nodup_map_iff fun _ _ => Identifier.ext).mpr event.targets_nodup
  · have keys := described.trace_envelope.keys
    rw [List.forall_mem_map] at keys
    exact keys
  · exact isSafeText_of_map carries.requestId
  · exact isSafeText_of_map carries.correlationId
  · intro own member
    refine ⟨isSafeText_of_map carries.traceparent own member, ?_⟩
    rw [← carries.traceparent] at member
    obtain ⟨safe, held, rfl⟩ := Option.map_eq_some_iff.mp member
    exact described.trace_envelope.valid safe held
  · exact isSafeText_of_map carries.tracestate
  · exact described.mutation_envelope.1

end DescribesEvent

theorem describes_of_admissible (admissible : Admissible table draft eventId sequence trace) :
    ∃ event : IndexingEventV2 table F, DescribesEvent otherFormats
      (envelopeWith draft eventId sequence occurredAt trace) event := by
  obtain ⟨rolloutId, rolled⟩ := exists_map_identifier admissible.rolloutId
  obtain ⟨targetClusters, targets⟩ := exists_identifiers admissible.targetClusters
  obtain ⟨requestId, requested⟩ := exists_map_safeText admissible.requestId
  obtain ⟨correlationId, correlated⟩ := exists_map_safeText admissible.correlationId
  obtain ⟨tracestate, stated⟩ := exists_map_safeText admissible.tracestate
  obtain ⟨parent, parented⟩ :=
    exists_map_safeText fun text member => (admissible.traceparent text member).1
  obtain ⟨document, safe, mutation⟩ : ∃ (document : Option (Document F))
      (safe : Option (SafeText table 1024)), DescribesMutation draft.operation
      (get (envelopeWith draft eventId sequence occurredAt trace) "document")
      (get (envelopeWith draft eventId sequence occurredAt trace) "delete_filter")
      draft.documentId document safe := exists_describes_mutation admissible.mutation
  have distinct : targetClusters.Nodup := by
    refine List.Nodup.of_map Identifier.text ?_
    rw [targets]
    exact admissible.distinct
  obtain ⟨stripped, filled, short, printable⟩ := admissible.tenantId
  let event : IndexingEventV2 table F :=
    { eventId := ⟨eventId.text, admissible.eventId⟩
      identity :=
        { tenantId := ⟨draft.tenantId, stripped, filled, short, printable⟩
          collection := ⟨draft.collection, admissible.collection⟩
          documentId := ⟨draft.documentId, admissible.documentId⟩ }
      documentVersion := ⟨sequence, admissible.sequence⟩
      sequence := ⟨sequence, admissible.sequence⟩
      operation := draft.operation
      routingRevision := ⟨draft.routingRevision, admissible.routingRevision⟩
      rolloutId := rolloutId
      targetClusters := targetClusters
      occurredAt := occurredAt
      trace := ⟨requestId, correlationId, parent, tracestate⟩
      document := document
      deleteFilter := safe
      targets_nodup := distinct }
  refine ⟨event, ?_, rfl, ⟨_, rfl, ?_⟩, rfl, rfl, rfl,
    parseOperation_operationText draft.operation, ?_, ?_, ?_,
    timestamp_isoformat otherFormats occurredAt, ⟨_, rfl, ?_⟩, mutation⟩
  · intro field member
    have listed : field.1 ∈ (envelopeWith draft eventId sequence occurredAt trace).map Prod.fst :=
      List.mem_map_of_mem member
    rw [keys_envelopeWith] at listed
    exact envelopeKeys_subset _ _ _ listed
  · exact ⟨fun field member => List.mem_map_of_mem (f := Prod.fst) member, rfl,
      admissible.separated, rfl, rfl⟩
  · show optionalText draft.rolloutId = _
    rw [← rolled, optionalText_map]
  · show Json.list (draft.targetClusters.map .str) = _
    rw [← targets, List.map_map]
    rfl
  · intro none
    refine admissible.addressed ?_
    rw [← targets, show targetClusters = [] from none]
    rfl
  · refine ⟨?_, holdsText_get.mpr requested, holdsText_get.mpr correlated,
      holdsText_get.mpr parented, ?_, holdsText_get.mpr stated⟩
    · rw [List.forall_mem_map]
      exact admissible.traceKeys
    · intro own member
      exact (admissible.traceparent own.text (parented ▸ Option.mem_map_of_mem _ member)).2

omit [PyFloat F] in
theorem EventIdentity.scalar_logicalKey (identity : EventIdentity table) :
    IsScalarText identity.logicalKey := by
  intro c member
  unfold EventIdentity.logicalKey at member
  simp only [List.intercalate, List.intersperse, List.flatten_cons, List.flatten_nil,
    List.append_nil, List.mem_append, List.mem_cons, List.not_mem_nil, or_false] at member
  rcases member with tenant | rfl | collection | rfl | document
  · exact identity.tenantId.scalar c tenant
  · exact Or.inl (by decide)
  · exact identity.collection.scalar namePattern_ascii c collection
  · exact Or.inl (by decide)
  · exact identity.documentId.scalar documentIdPattern_ascii c document

omit [PyFloat F] in
/-- The producer's key is the one that the worker computes. -/
theorem Carries.kafkaKey {event : IndexingEventV2 table F}
    (carries : Carries draft eventId sequence occurredAt trace event) :
    draft.kafkaKey = utf8Encode event.identity.logicalKey := by
  unfold IndexingEventDraft.kafkaKey EventIdentity.logicalKey
  rw [carries.tenantId, carries.collection, carries.documentId]

/-- The numbers of an admissible event can be printed. -/
theorem Admissible.short (admissible : Admissible table draft eventId sequence trace) :
    ∀ n ∈ [2, sequence, draft.routingRevision], (natText n.natAbs).length ≤ maxStrDigits := by
  have printable : ∀ n : ℤ, 1 ≤ n ∧ n ≤ maxInt64 → (natText n.natAbs).length ≤ maxStrDigits := by
    rintro n ⟨low, high⟩
    have small : n.natAbs < 10 ^ 19 := by
      unfold maxInt64 at high
      omega
    exact (natText_length_le (by norm_num) small).trans (by norm_num [maxStrDigits])
  simp only [List.forall_mem_cons]
  exact ⟨printable 2 (by decide), printable _ admissible.sequence,
    printable _ admissible.routingRevision, fun _ member => absurd member List.not_mem_nil⟩

/-- A delivery, step by step. -/
theorem deliverEvent_eq_some {propagated : TraceCarrier} {parsed : ParsedIndexingEvent table F} :
    deliverEvent table otherFormats draft eventId sequence occurredAt propagated allowLegacy =
        some parsed ↔
      ∃ key value, draft.kafkaKey = some key ∧
        valueSerializer (envelope draft eventId sequence occurredAt
          (draft.trace.merge propagated)).json = some value ∧
        receiveEvent table otherFormats allowLegacy (some key) (some value) = some parsed := by
  unfold deliverEvent sendWithTrace
  rw [outbound_eq]
  constructor
  · intro delivered
    obtain ⟨⟨key, value⟩, sent, received⟩ := Option.bind_eq_some_iff.mp delivered
    obtain ⟨own, keyed, mapped⟩ := Option.bind_eq_some_iff.mp sent
    obtain ⟨bytes, printed, same⟩ := Option.map_eq_some_iff.mp mapped
    cases same
    exact ⟨key, value, keyed, printed, received⟩
  · rintro ⟨key, value, keyed, printed, received⟩
    refine Option.bind_eq_some_iff.mpr ⟨(key, value), ?_, received⟩
    rw [keyed, Option.bind_some]
    exact Option.map_eq_some_iff.mpr ⟨value, printed, rfl⟩

end Envelope

/-- **The worker accepts exactly the events that meet its requirements.** Whatever draft, event
id, sequence and trace the producer sends, the worker decodes the record, parses it and finds
its key valid if and only if the draft with the merged trace is admissible. What it accepts is
an event of the second version that carries everything the draft said. -/
theorem worker_accepts_exactly_admissible [PyFloat F] (table : PrintableTable)
    (otherFormats : Text → Option Moment) (allowLegacy : Bool) (draft : IndexingEventDraft F)
    (eventId : SettledText) (sequence : ℤ) (occurredAt : Datetime) (propagated : TraceCarrier) :
    ((∃ parsed, deliverEvent table otherFormats draft eventId sequence occurredAt propagated
        allowLegacy = some parsed) ↔
      Admissible table draft eventId sequence (draft.trace.merge propagated)) ∧
    ∀ parsed, deliverEvent table otherFormats draft eventId sequence occurredAt propagated
        allowLegacy = some parsed →
      ∃ event, parsed = .v2 event ∧
        Carries draft eventId sequence occurredAt (draft.trace.merge propagated) event := by
  have accepted : ∀ parsed, deliverEvent table otherFormats draft eventId sequence occurredAt
      propagated allowLegacy = some parsed →
      Admissible table draft eventId sequence (draft.trace.merge propagated) ∧
      ∃ event, parsed = .v2 event ∧
        Carries draft eventId sequence occurredAt (draft.trace.merge propagated) event := by
    intro parsed delivered
    -- what was printed has short numbers, so it is read back as it was
    obtain ⟨key, value, -, printed, received⟩ := deliverEvent_eq_some.mp delivered
    obtain ⟨event, same, -, described⟩ := (receiveEvent_sent printed).mp received
    exact ⟨described.admissible, event, same, described.carries⟩
  refine ⟨⟨?_, ?_⟩, fun parsed delivered => (accepted parsed delivered).2⟩
  · rintro ⟨parsed, delivered⟩
    exact (accepted parsed delivered).1
  · -- the event is built of the draft, so its key is the one that is sent
    intro admissible
    obtain ⟨event, described⟩ : ∃ event : IndexingEventV2 table F, DescribesEvent otherFormats
        (envelopeWith draft eventId sequence occurredAt (draft.trace.merge propagated)) event :=
      describes_of_admissible admissible
    have carries := described.carries
    obtain ⟨key, encoded⟩ := Option.ne_none_iff_exists'.mp
      (utf8Encode_isSome.mpr event.identity.scalar_logicalKey)
    obtain ⟨value, printed⟩ : ∃ value, valueSerializer (envelope draft eventId sequence occurredAt
        (draft.trace.merge propagated)).json = some value :=
      ⟨_, valueSerializer_eq (short_envelope admissible.short)⟩
    refine ⟨.v2 event, deliverEvent_eq_some.mpr
      ⟨key, value, carries.kafkaKey.trans encoded, printed, ?_⟩⟩
    exact (receiveEvent_sent printed).mpr ⟨event, rfl, decide_eq_true encoded, described⟩

/-- The deletion of a note. -/
def noteDeletion : IndexingEventDraft SampleFloat where
  tenantId := chars "acme"
  collection := chars "notes"
  documentId := chars "n1"
  operation := .delete
  targetClusters := [chars "default"]
  routingRevision := 1
  rolloutId := none
  trace := ⟨[], .nil, nofun⟩
  document := none
  deleteFilter := some (chars "(id:=n1) && tenant_id:=acme")
  settled := by
    intro text member
    refine settled_of_scalar (isScalarText_of_ascii ?_)
    revert text
    decide
  isObject := nofun
  deliverable := nofun

example : (deliverEvent asciiTable (fun _ => none) noteDeletion
    ⟨chars "evt:0001", settled_of_scalar (isScalarText_of_ascii (by decide))⟩ 1
    ((Datetime.make 2026 1 1 0 0 0 0).get (by decide)) ⟨[], .nil, nofun⟩ false).isSome = true := by
  decide +kernel

end ImposbroSearch.Indexing.EventEnvelope
