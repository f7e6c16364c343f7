import ImposbroSearch.Auth.WriteAuthorization
import ImposbroSearch.Foundation.Runs
import ImposbroSearch.Publishing.EventStore

/-!
# From a write request to a durable event

The ingest and delete endpoints check the document id, authorize the write,
take the route in force, derive the tenant identity, and prepare the event. A
refused request leaves the event store as it was.

Routing is the federation service's concern; a request carries the route it
returns. What is indexed for a document is `stored tenant document`, so that a
result may ask about the document alone or about who wrote it.
-/

namespace ImposbroSearch.Publishing

open ImposbroSearch.Foundation ImposbroSearch.Indexing ImposbroSearch.Auth

/-- What `get_indexing_route` and `get_delete_route` return, when they name any
cluster at all. -/
structure Route where
  targetClusters : List ClusterName
  routingRevision : ℕ
  rolloutId : Option String
  targets_ne : targetClusters ≠ [] := by decide
  targets_nodup : targetClusters.Nodup := by decide

/-- The draft of a mutation along this route. -/
def Route.draft {Doc : Type} (route : Route) (identity : EventIdentity) (mutation : Mutation Doc)
    (idempotencyKey : String) : IndexingEventDraft Doc where
  identity := identity
  mutation := mutation
  targetClusters := route.targetClusters
  routingRevision := max 1 route.routingRevision
  rolloutId := route.rolloutId
  idempotencyKey := idempotencyKey
  targets_ne := route.targets_ne
  targets_nodup := route.targets_nodup

inductive WriteBody where
  | document (document : Document)
  | deletion (documentId : String)

structure WriteRequest where
  caller : Caller
  collection : String
  body : WriteBody
  indexingRoute : Document → Option Route
  deleteRoute : Option Route
  idempotencyKey : String

/-- A character of `DOCUMENT_ID_PATTERN`. -/
def isDocumentIdChar (c : Char) : Bool :=
  isAsciiLetter c || isAsciiDigit c || c = '_' || c = '.' || c = '-'

/-- `re.fullmatch(DOCUMENT_ID_PATTERN, doc_id)` -/
def isDocumentId (text : String) : Bool :=
  1 ≤ text.length ∧ text.length ≤ 256 ∧ text.toList.all isDocumentIdChar

def invalidDocumentId : HttpError where
  status := 400
  detail := "Document 'id' must be a string containing 1-256 letters, numbers, " ++
    "underscore, dot, or hyphen characters."

section Gateway

variable {Doc : Type} (canonical : Doc → String) (stored : String → Document → Doc)
  (enterprise : Bool) (policy : String → TenantPolicy)

/-- The draft of an accepted document, `_publish_ingest_document`. -/
def ingestDraft (request : WriteRequest) (document : Document) :
    Except HttpError (IndexingEventDraft Doc) :=
  match document.lookup "id" with
  | some (.string documentId) =>
    if isDocumentId documentId then
      match authorizeIngestDocument (policy request.collection) request.caller.tenants document with
      | .error error => .error error
      | .ok document =>
        match request.indexingRoute document with
        | none => .error ⟨503, "No target cluster available for document. " ++
            "Ensure at least one data cluster is registered and routing is configured."⟩
        | some route =>
          match eventTenantIdentity enterprise (policy request.collection) request.caller
            (some document) with
          | .error error => .error error
          | .ok tenantId =>
            .ok (route.draft ⟨tenantId, request.collection, documentId⟩
              (.upsert (stored tenantId document)) request.idempotencyKey)
    else .error invalidDocumentId
  | _ => .error invalidDocumentId

/-- The draft of an accepted delete, `delete_document`. -/
def deleteDraft (request : WriteRequest) (documentId : String) :
    Except HttpError (IndexingEventDraft Doc) :=
  match request.deleteRoute with
  | none => .error ⟨503, "No target cluster available for document deletion. " ++
      "Ensure at least one data cluster is registered and routing is configured."⟩
  | some route =>
    match eventTenantIdentity enterprise (policy request.collection) request.caller none with
    | .error error => .error error
    | .ok tenantId =>
      .ok (route.draft ⟨tenantId, request.collection, documentId⟩
        (.delete (authorizeDeleteFilter (policy request.collection) request.caller.tenants
          documentId)) request.idempotencyKey)

def requestDraft (request : WriteRequest) : Except HttpError (IndexingEventDraft Doc) :=
  match request.body with
  | .document document => ingestDraft stored enterprise policy request document
  | .deletion documentId => deleteDraft enterprise policy request documentId

/-- Handle one write request: authorize it and `prepare` its event. -/
def handleWrite (store : EventStore Doc) (request : WriteRequest) :
    Except HttpError (PreparedIndexingEvent Doc × EventStore Doc) :=
  match requestDraft stored enterprise policy request with
  | .error error => .error error
  | .ok draft =>
    match store.prepare canonical draft with
    | .error (.idempotencyConflict message) => .error ⟨409, message⟩
    | .error (.repairSourceNotFound message) => .error ⟨500, message⟩
    | .ok prepared => .ok prepared

/-- The event store after a request. -/
def gatewayStep (store : EventStore Doc) (request : WriteRequest) : EventStore Doc :=
  match handleWrite canonical stored enterprise policy store request with
  | .ok (_, next) => next
  | .error _ => store

/-- The event store after the requests, from an empty one. -/
def storeAfter (requests : List WriteRequest) : EventStore Doc :=
  run (gatewayStep canonical stored enterprise policy) EventStore.empty requests

/-- Among `requests`, `request` is accepted and answered with `event`. -/
def Answers (requests : List WriteRequest) (request : WriteRequest)
    (event : IndexingEventV2 Doc) : Prop :=
  ∃ pre post row next, requests = pre ++ request :: post ∧
    handleWrite canonical stored enterprise policy
      (storeAfter canonical stored enterprise policy pre) request = .ok (row, next) ∧
    row.event = event

variable {canonical stored enterprise policy} {store : EventStore Doc} {request : WriteRequest}

/-- **An accepted request is answered with an event of its own identity**, stored
before or inserted now. -/
theorem handleWrite_ok {row : PreparedIndexingEvent Doc} {next : EventStore Doc}
    (handled : handleWrite canonical stored enterprise policy store request = .ok (row, next)) :
    ∃ draft, requestDraft stored enterprise policy request = .ok draft ∧
      row.event.identity = draft.identity ∧
      ((row ∈ store.rows ∧ next = store) ∨
        (row = store.nextRow draft ∧ next = store.insertOutboxEvent draft)) := by
  unfold handleWrite at handled
  cases drafted : requestDraft stored enterprise policy request with
  | error error =>
      rw [drafted] at handled
      cases handled
  | ok draft =>
      rw [drafted] at handled
      cases prepared : store.prepare canonical draft with
      | error error =>
          simp only [prepared] at handled
          split at handled <;> simp_all
      | ok result =>
          simp only [prepared, Except.ok.injEq] at handled
          rw [handled] at prepared
          exact ⟨draft, rfl, EventStore.prepare_identity prepared,
            EventStore.prepare_cases prepared⟩

/-- **One request inserts at most the event of its own draft.** -/
theorem gatewayStep_cases (canonical : Doc → String) (stored : String → Document → Doc)
    (enterprise : Bool) (policy : String → TenantPolicy) (store : EventStore Doc)
    (request : WriteRequest) :
    gatewayStep canonical stored enterprise policy store request = store ∨
      ∃ draft, requestDraft stored enterprise policy request = .ok draft ∧
        gatewayStep canonical stored enterprise policy store request =
          store.insertOutboxEvent draft := by
  unfold gatewayStep
  cases handled : handleWrite canonical stored enterprise policy store request with
  | error error => exact Or.inl rfl
  | ok result =>
      obtain ⟨row, next⟩ := result
      obtain ⟨draft, drafted, -, ⟨-, same⟩ | ⟨-, inserted⟩⟩ := handleWrite_ok handled
      · exact Or.inl same
      · exact Or.inr ⟨draft, drafted, inserted⟩

theorem sound_storeAfter (requests : List WriteRequest) :
    (storeAfter canonical stored enterprise policy requests).Sound := by
  refine run_invariant_always (fun store request sound => ?_) EventStore.sound_empty
  rcases gatewayStep_cases canonical stored enterprise policy store request with
    same | ⟨draft, -, inserted⟩
  · rw [same]
    exact sound
  · rw [inserted]
    exact sound.insert

/-- What the event of every draft satisfies holds of every stored event. -/
theorem forall_events_storeAfter {P : IndexingEventV2 Doc → Prop} {requests : List WriteRequest}
    (drafted : ∀ request draft, requestDraft stored enterprise policy request = .ok draft →
      ∀ store : EventStore Doc, P (store.nextRow draft).event) :
    ∀ event ∈ (storeAfter canonical stored enterprise policy requests).events, P event := by
  refine run_invariant_always (I := fun store : EventStore Doc => ∀ event ∈ store.events, P event)
    (fun store request holds => ?_) (by simp [EventStore.empty, EventStore.events])
  rcases gatewayStep_cases canonical stored enterprise policy store request with
    same | ⟨draft, found, inserted⟩
  · rw [same]
    exact holds
  · rw [inserted]
    intro event member
    obtain ⟨row, stored, rfl⟩ := List.mem_map.mp member
    rcases List.mem_append.mp stored with stored | here
    · exact holds _ (List.mem_map_of_mem stored)
    · obtain rfl := List.mem_singleton.mp here
      exact drafted request draft found store

/-- Stored rows stay. -/
theorem rows_sub_run (requests : List WriteRequest) {row : PreparedIndexingEvent Doc}
    (member : row ∈ store.rows) :
    row ∈ (run (gatewayStep canonical stored enterprise policy) store requests).rows := by
  induction requests generalizing store with
  | nil => exact member
  | cons request requests ih =>
      rw [run_cons]
      apply ih
      rcases gatewayStep_cases canonical stored enterprise policy store request with
        same | ⟨draft, -, inserted⟩
      · rw [same]
        exact member
      · rw [inserted]
        exact List.mem_append_left _ member

/-- The event a request is answered with is stored. -/
theorem Answers.mem_events {requests : List WriteRequest} {event : IndexingEventV2 Doc}
    (answers : Answers canonical stored enterprise policy requests request event) :
    event ∈ (storeAfter canonical stored enterprise policy requests).events := by
  obtain ⟨pre, post, row, next, rfl, handled, rfl⟩ := answers
  refine List.mem_map_of_mem ?_
  unfold storeAfter
  rw [run_append, run_cons]
  refine rows_sub_run post ?_
  have reached : gatewayStep canonical stored enterprise policy
      (storeAfter canonical stored enterprise policy pre) request = next := by
    rw [gatewayStep, handled]
  unfold storeAfter at reached
  rw [reached]
  obtain ⟨draft, -, -, ⟨member, rfl⟩ | ⟨rfl, rfl⟩⟩ := handleWrite_ok handled
  · exact member
  · exact List.mem_append_right _ (List.mem_singleton.mpr rfl)

/-! ## What a draft is made of -/

/-- The identity and the mutation of a request's draft. -/
theorem requestDraft_ok {draft : IndexingEventDraft Doc}
    (drafted : requestDraft stored enterprise policy request = .ok draft) :
    draft.identity.collection = request.collection ∧
      ∃ document, eventTenantIdentity enterprise (policy request.collection) request.caller
          document = .ok draft.identity.tenantId ∧
        ((∃ indexed, document = some indexed ∧
            draft.mutation = .upsert (stored draft.identity.tenantId indexed)) ∨
          (document = none ∧ draft.mutation = .delete (authorizeDeleteFilter
            (policy request.collection) request.caller.tenants draft.identity.documentId))) := by
  unfold requestDraft at drafted
  split at drafted
  next document _ =>
    unfold ingestDraft at drafted
    split at drafted
    next documentId _ =>
      split_ifs at drafted
      split at drafted
      · cases drafted
      next authorized _ =>
        split at drafted
        · cases drafted
        next route _ =>
          split at drafted
          · cases drafted
          next tenantId identified =>
            cases drafted
            exact ⟨rfl, some authorized, identified, Or.inl ⟨authorized, rfl, rfl⟩⟩
    · cases drafted
  next documentId _ =>
    unfold deleteDraft at drafted
    split at drafted
    · cases drafted
    next route _ =>
      split at drafted
      · cases drafted
      next tenantId identified =>
        cases drafted
        exact ⟨rfl, none, identified, Or.inr ⟨rfl, rfl⟩⟩

end Gateway

end ImposbroSearch.Publishing
