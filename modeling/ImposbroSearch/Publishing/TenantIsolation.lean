import ImposbroSearch.Indexing.FifoDelivery
import ImposbroSearch.Publishing.Ingest

/-!
# Writes of different tenants to one physical document

An event is ordered and checkpointed under its tenant's identity, but applied at
`(collection, id)`, which no tenant owns. Checkpoints therefore never stand
between two tenants that use one id: whichever event comes later finds the
other's document and is applied to it. A delete carries the tenant filter; an
upsert carries nothing.

A document is marked here with the tenant whose request wrote it. The worker
moves the mark along with the document and never reads it.
-/

namespace ImposbroSearch.Publishing

open ImposbroSearch.Foundation ImposbroSearch.Indexing ImposbroSearch.Auth

/-- A document and the tenant that wrote it. -/
structure Written where
  document : Document
  writer : String

/-- The mark is not part of what is indexed, hashed, or searched. -/
def Written.by (tenantId : String) (document : Document) : Written := ⟨document, tenantId⟩

section Isolation

variable (canonical : Document → String) (satisfies : String → Document → Bool)
  (digest : IndexingEventV2 Written → String) (enterprise : Bool)
  (policy : String → TenantPolicy) (requests : List WriteRequest)

/-- The events stored for `requests`, in the order of their acceptance. -/
abbrev writtenEvents : List (IndexingEventV2 Written) :=
  (storeAfter (fun written => canonical written.document) Written.by enterprise policy
    requests).events

/-- `request`, made for `tenants`, is accepted and answered with `event`. -/
def MadeFor (request : WriteRequest) (tenants : List TenantValue)
    (event : IndexingEventV2 Written) : Prop :=
  Answers (fun written => canonical written.document) Written.by enterprise policy requests
      request event ∧
    request.caller.tenants = some tenants

/-- The clusters after some attempts at processing events. -/
abbrev processed (attempts : List (Attempt Written)) : Storage Written :=
  run (workerStep (fun filter written => satisfies filter written.document) (encoded digest))
    Storage.blank attempts

/-- No attempt at a request's event touches a document that another tenant wrote,
in a collection with a tenant policy. -/
def Isolated (attempts : List (Attempt Written)) : Prop :=
  ∀ pre attempt post, attempts = pre ++ attempt :: post →
    ∀ request tenants,
      MadeFor canonical enterprise policy requests request tenants attempt.event →
        ∀ cluster address written, (policy address.collection).mode ≠ .off →
          (processed satisfies digest pre).documents cluster address = some written →
            written.writer ∉ tenants.map TenantValue.text →
              (processed satisfies digest (pre ++ [attempt])).documents cluster address =
                some written

/-- No accepted write can remove a document that an accepted upsert of another
tenant puts at the same address of a common cluster. -/
def SeparateDocuments : Prop :=
  ∀ victim ∈ writtenEvents canonical enterprise policy requests, ∀ written,
    victim.mutation = .upsert written → (policy victim.identity.collection).mode ≠ .off →
      ∀ request tenants intruder,
        MadeFor canonical enterprise policy requests request tenants intruder →
          written.writer ∉ tenants.map TenantValue.text →
            intruder.identity.address = victim.identity.address →
              ∀ cluster ∈ victim.targetClusters, cluster ∈ intruder.targetClusters →
                ¬intruder.mutation.Removes
                  (fun filter written => satisfies filter written.document) written

variable {canonical satisfies digest enterprise policy requests}

/-! ## Where stored documents come from -/

/-- Every stored document was put there by an accepted upsert aimed at that place. -/
def Attributed (events : List (IndexingEventV2 Written)) (storage : Storage Written) : Prop :=
  ∀ cluster address written, storage.documents cluster address = some written →
    ∃ event ∈ events, event.mutation = .upsert written ∧ event.identity.address = address ∧
      cluster ∈ event.targetClusters

/-- One attempt leaves at each place what was there, or applies its event there. -/
theorem workerStep_documents {satisfies : String → Written → Bool} {digest : Digest Written}
    (storage : Storage Written) (attempt : Attempt Written) (cluster : ClusterName)
    (address : PhysicalAddress) :
    (workerStep satisfies digest storage attempt).documents cluster address =
        storage.documents cluster address ∨
      (cluster ∈ attempt.event.targetClusters ∧ attempt.event.identity.address = address ∧
        (workerStep satisfies digest storage attempt).documents cluster address =
          attempt.event.mutation.effect satisfies (storage.documents cluster address)) := by
  by_cases here : cluster ∈ attempt.event.targetClusters ∧ address = attempt.event.identity.address
  · obtain ⟨targeted, rfl⟩ := here
    have move : TargetMove satisfies digest attempt.event cluster
        (storage.cell attempt.event cluster)
        ((workerStep satisfies digest storage attempt).cell attempt.event cluster) :=
      eventScope_move targeted
    have content : ((workerStep satisfies digest storage attempt).cell attempt.event cluster).1 =
        (storage.cell attempt.event cluster).1 ∨
      ((workerStep satisfies digest storage attempt).cell attempt.event cluster).1 =
        attempt.event.mutation.effect satisfies (storage.cell attempt.event cluster).1 := by
      generalize (workerStep satisfies digest storage attempt).cell attempt.event cluster =
        reached at move
      cases move with
      | keep => exact Or.inl rfl
      | orphan applies => exact Or.inr rfl
      | record applies row named => exact Or.inr rfl
    rcases content with same | applied
    · exact Or.inl same
    · exact Or.inr ⟨targeted, rfl, applied⟩
  · exact Or.inl (eventScope_frame.1 cluster address here)

variable (satisfies digest) in
theorem attributed_processed {events : List (IndexingEventV2 Written)}
    {attempts : List (Attempt Written)} (sent : ∀ attempt ∈ attempts, attempt.event ∈ events) :
    Attributed events (processed satisfies digest attempts) := by
  induction attempts using List.reverseRecOn with
  | nil =>
      intro cluster address written stored
      cases stored
  | append_singleton attempts attempt ih =>
      intro cluster address written stored
      have before := ih fun other member => sent other (List.mem_append_left _ member)
      rw [processed, run_snoc] at stored
      rcases workerStep_documents (run _ Storage.blank attempts) attempt cluster address with
        same | ⟨targeted, here, applied⟩
      · rw [same] at stored
        exact before cluster address written stored
      · rw [applied] at stored
        rcases Mutation.eq_of_effect stored with upserted | stored
        · exact ⟨attempt.event, sent attempt (by simp), upserted, here, targeted⟩
        · exact before cluster address written stored

/-! ## What the gateway puts into an event -/

/-- An upsert is marked with the tenant of its own identity. -/
theorem writer_eq {event : IndexingEventV2 Written}
    (member : event ∈ writtenEvents canonical enterprise policy requests) {written : Written}
    (upserted : event.mutation = .upsert written) : written.writer = event.identity.tenantId := by
  have marked : ∀ event ∈ writtenEvents canonical enterprise policy requests, ∀ written,
      event.mutation = .upsert written → written.writer = event.identity.tenantId := by
    refine forall_events_storeAfter fun request draft drafted store written upserted => ?_
    have mutation : draft.mutation = .upsert written := upserted
    show written.writer = draft.identity.tenantId
    obtain ⟨-, document, -, ⟨indexed, -, here⟩ | ⟨-, here⟩⟩ := requestDraft_ok drafted
    · rw [here] at mutation
      cases mutation
      rfl
    · rw [here] at mutation
      cases mutation
  exact marked event member written upserted

/-- In a collection with a tenant policy, a request's event carries one of the
request's own tenants. -/
theorem MadeFor.tenant_mem {request : WriteRequest} {tenants : List TenantValue}
    {event : IndexingEventV2 Written}
    (made : MadeFor canonical enterprise policy requests request tenants event)
    (enforced : (policy event.identity.collection).mode ≠ .off) :
    event.identity.tenantId ∈ tenants.map TenantValue.text := by
  obtain ⟨⟨pre, post, row, next, -, handled, rfl⟩, presented⟩ := made
  obtain ⟨draft, drafted, same, -⟩ := handleWrite_ok handled
  obtain ⟨collection, document, identified, -⟩ := requestDraft_ok drafted
  rw [same, collection] at enforced
  rw [same]
  exact eventTenantIdentity_mem enforced presented identified

/-- Two identities at one address with one key have one tenant. -/
theorem tenantId_eq_of_logicalKey {first second : EventIdentity}
    (sameKey : first.logicalKey = second.logicalKey) (sameAddress : first.address = second.address) :
    first.tenantId = second.tenantId := by
  obtain ⟨collection, documentId⟩ := PhysicalAddress.ext_iff.mp sameAddress
  have text := congrArg String.toList sameKey
  simp only [EventIdentity.address] at collection documentId
  simp only [EventIdentity.logicalKey, collection, documentId, String.intercalate_cons_cons,
    String.toList_append, List.append_cancel_right_eq] at text
  exact String.toList_inj.mp text

/-! ## Isolation -/

/-- Separate documents are never touched across tenants, whatever the attempts. -/
theorem SeparateDocuments.isolated
    (separate : SeparateDocuments canonical satisfies enterprise policy requests)
    {attempts : List (Attempt Written)}
    (sent : ∀ attempt ∈ attempts,
      attempt.event ∈ writtenEvents canonical enterprise policy requests) :
    Isolated canonical satisfies digest enterprise policy requests attempts := by
  rintro pre attempt post rfl request tenants made cluster address written enforced stored foreign
  rw [processed, run_snoc]
  rcases workerStep_documents (run _ Storage.blank pre) attempt cluster address with
    same | ⟨targeted, here, applied⟩
  · rw [same]
    exact stored
  · obtain ⟨victim, member, upserted, place, victimTargeted⟩ :=
      attributed_processed satisfies digest
        (fun other member => sent other (List.mem_append_left _ member)) cluster address written
        stored
    rw [applied, show (run _ Storage.blank pre).documents cluster address = some written from
      stored]
    apply Mutation.effect_of_not_removes
    subst place
    exact separate victim member written upserted enforced request tenants attempt.event made
      foreign here cluster victimTargeted targeted

/-- The attempts of a fault-free delivery. -/
def delivered (order : List (IndexingEventV2 Written)) : List (Attempt Written) :=
  order.map fun event => { event := event }

theorem processed_delivered (order : List (IndexingEventV2 Written)) :
    processed satisfies digest (delivered order) =
      run (deliver (fun filter written => satisfies filter written.document) digest)
        Storage.blank order :=
  List.foldl_map

variable (digest) in
/-- Delivered after the other tenant's upsert, a request's event meets its document. -/
theorem separateDocuments_of_isolated
    (isolated : ∀ order, KafkaOrder (writtenEvents canonical enterprise policy requests) order →
      Isolated canonical satisfies digest enterprise policy requests (delivered order)) :
    SeparateDocuments canonical satisfies enterprise policy requests := by
  intro victim member written upserted enforced request tenants intruder made foreign samePlace
    cluster victimTargeted targeted removes
  have intruderMember : intruder ∈ writtenEvents canonical enterprise policy requests :=
    made.1.mem_events
  have sound : (storeAfter (fun written => canonical written.document) Written.by enterprise policy
    requests).Sound := sound_storeAfter requests
  have logged := sound.eventLog
  have own : intruder.identity.tenantId ∈ tenants.map TenantValue.text := by
    refine made.tenant_mem ?_
    rw [show intruder.identity.collection = victim.identity.collection from
      congrArg PhysicalAddress.collection samePlace]
    exact enforced
  have otherKey : intruder.identity.logicalKey ≠ victim.identity.logicalKey := by
    intro same
    rw [tenantId_eq_of_logicalKey same samePlace, ← writer_eq member upserted] at own
    exact foreign own
  -- the events before the intruder, then those before the victim, then the two
  have before : ∀ event : IndexingEventV2 Written, ∃ earlier,
      KafkaOrder (writtenEvents canonical enterprise policy requests) earlier ∧
        ∀ other, other ∈ earlier ↔
          other ∈ writtenEvents canonical enterprise policy requests ∧
            other.identity.logicalKey = event.identity.logicalKey ∧
            other.sequence < event.sequence := by
    intro event
    refine ⟨_, Fifo.filter (p := fun other : IndexingEventV2 Written =>
      decide (other.identity.logicalKey = event.identity.logicalKey ∧
        other.sequence < event.sequence)) sound.sorted ?_, fun other => by simp⟩
    intro record _ picked other _ sameKey lower
    have lower : other.sequence < record.sequence := lower
    simp only [decide_eq_true_eq] at picked ⊢
    exact ⟨sameKey.trans picked.1, by omega⟩
  obtain ⟨intruders, intrudersFifo, intrudersMem⟩ := before intruder
  obtain ⟨victims, victimsFifo, victimsMem⟩ := before victim
  have first : KafkaOrder _ (intruders ++ victims ++ [victim]) :=
    (intrudersFifo.append victimsFifo).snoc member fun other inLog sameKey lower =>
      List.mem_append_right _ ((victimsMem other).mpr ⟨inLog, sameKey, lower⟩)
  have second : KafkaOrder _ (intruders ++ victims ++ [victim] ++ [intruder]) :=
    first.snoc intruderMember fun other inLog sameKey lower =>
      List.mem_append_left _ (List.mem_append_left _
        ((intrudersMem other).mpr ⟨inLog, sameKey, lower⟩))
  have freshVictim : victim ∉ intruders ++ victims := by
    intro delivered
    rcases List.mem_append.mp delivered with delivered | delivered
    · exact otherKey ((intrudersMem victim).mp delivered).2.1.symm
    · exact absurd ((victimsMem victim).mp delivered).2.2 (lt_irrefl _)
  have freshIntruder : intruder ∉ intruders ++ victims ++ [victim] := by
    intro delivered
    rcases List.mem_append.mp delivered with delivered | here
    · rcases List.mem_append.mp delivered with delivered | delivered
      · exact absurd ((intrudersMem intruder).mp delivered).2.2 (lt_irrefl _)
      · exact otherKey ((victimsMem intruder).mp delivered).2.1
    · exact otherKey (congrArg (·.identity.logicalKey) (List.mem_singleton.mp here))
  have stored : (processed satisfies digest
      (delivered (intruders ++ victims ++ [victim]))).documents cluster victim.identity.address =
        some written := by
    rw [processed_delivered, run_snoc_documents _ _ logged Storage.blank_fresh first,
      if_pos ⟨⟨victimTargeted, rfl⟩, freshVictim⟩, upserted]
    rfl
  have touched := isolated _ second (delivered (intruders ++ victims ++ [victim]))
    { event := intruder } [] (by simp [delivered]) request tenants made cluster
    victim.identity.address written enforced stored foreign
  have applied : (processed satisfies digest
      (delivered (intruders ++ victims ++ [victim] ++ [intruder]))).documents cluster
        victim.identity.address =
      intruder.mutation.effect (fun filter written => satisfies filter written.document)
        (some written) := by
    rw [processed_delivered] at stored ⊢
    rw [run_snoc_documents _ _ logged Storage.blank_fresh second,
      if_pos ⟨⟨targeted, samePlace.symm⟩, freshIntruder⟩, stored]
  have kept : intruder.mutation.effect (fun filter written => satisfies filter written.document)
      (some written) = some written := by
    rw [← applied, ← touched]
    simp [delivered]
  cases mutation : intruder.mutation with
  | upsert document =>
      rw [mutation] at kept
      obtain rfl : document = written := Option.some.inj kept
      rw [← writer_eq intruderMember mutation] at own
      exact foreign own
  | delete filterBy =>
      rw [mutation] at kept removes
      have gone : (none : Option Written) = some written := removes.symm.trans kept
      cases gone
  | tombstone filterBy =>
      rw [mutation] at kept removes
      have gone : (none : Option Written) = some written := removes.symm.trans kept
      cases gone

/-- **When tenants are isolated.** For every sequence of requests, no delivery of
their events lets one tenant overwrite or delete another tenant's document exactly
when no accepted write can remove a document that an accepted upsert of another
tenant puts at the same address of a common cluster. It makes no difference whether
deliveries are in Kafka's order and free of faults, or arbitrary. -/
theorem tenant_isolation_iff (canonical : Document → String)
    (satisfies : String → Document → Bool) (digest : IndexingEventV2 Written → String)
    (enterprise : Bool) (policy : String → TenantPolicy) (requests : List WriteRequest) :
    ((∀ attempts : List (Attempt Written), (∀ attempt ∈ attempts,
        attempt.event ∈ writtenEvents canonical enterprise policy requests) →
          Isolated canonical satisfies digest enterprise policy requests attempts) ↔
        SeparateDocuments canonical satisfies enterprise policy requests) ∧
      ((∀ order, KafkaOrder (writtenEvents canonical enterprise policy requests) order →
          Isolated canonical satisfies digest enterprise policy requests (delivered order)) ↔
        SeparateDocuments canonical satisfies enterprise policy requests) := by
  have sent : ∀ order, KafkaOrder (writtenEvents canonical enterprise policy requests) order →
      ∀ attempt ∈ delivered order,
        attempt.event ∈ writtenEvents canonical enterprise policy requests := by
    intro order fifo attempt member
    obtain ⟨event, inOrder, rfl⟩ := List.mem_map.mp member
    exact fifo.sent event inOrder
  refine ⟨⟨fun isolated => ?_, fun separate attempts => separate.isolated⟩,
    ⟨separateDocuments_of_isolated digest,
      fun separate order fifo => separate.isolated (sent order fifo)⟩⟩
  exact separateDocuments_of_isolated digest fun order fifo =>
    isolated (delivered order) (sent order fifo)

end Isolation

/-! ## One id, two tenants -/

section SharedId

private def acmeTenant : TenantValue := .acme

private def globexTenant : TenantValue := { text := "globex" }

private def injecting (_ : String) : TenantPolicy := ⟨.inject, .standard⟩

private def booksRoute : Route where
  targetClusters := ["blue"]
  routingRevision := 1
  rolloutId := none

/-- A tenant ingests a document with the id both tenants use. -/
private def ingestFor (tenant : TenantValue) (title : String) : WriteRequest where
  caller := ⟨tenant.text, some [tenant]⟩
  collection := "books"
  body := .document [("id", .string "b1"), ("title", .string title)]
  indexingRoute := fun _ => some booksRoute
  deleteRoute := some booksRoute
  idempotencyKey := "first-request"

private def sharedRequests : List WriteRequest :=
  [ingestFor globexTenant "theirs", ingestFor acmeTenant "ours"]

private def canonicalNone (_ : Document) : String := ""

private def matchesNone (_ : String) (_ : Document) : Bool := false

private def digestId (event : IndexingEventV2 Written) : String := event.eventId

/-- Both tenants ingest the same id; the second event replaces the first one's document. -/
theorem upsert_overwrites_other_tenant :
    ¬∀ order, KafkaOrder (writtenEvents canonicalNone false injecting sharedRequests) order →
      Isolated canonicalNone matchesNone digestId false injecting sharedRequests
        (delivered order) := by
  intro isolated
  have separate := separateDocuments_of_isolated digestId isolated
  obtain ⟨victim, intruder, written, stored, upserted, place, theirs, ours, made, overwrites⟩ :
      ∃ victim intruder written,
        writtenEvents canonicalNone false injecting sharedRequests = [victim, intruder] ∧
          victim.mutation = .upsert written ∧
          intruder.identity.address = victim.identity.address ∧
          (victim.targetClusters = ["blue"] ∧ written.writer = "globex") ∧
          intruder.targetClusters = ["blue"] ∧
          MadeFor canonicalNone false injecting sharedRequests (ingestFor acmeTenant "ours")
            [acmeTenant] intruder ∧
          intruder.mutation.Removes (fun filter written => matchesNone filter written.document)
            written :=
    ⟨_, _, _, rfl, rfl, rfl, ⟨rfl, rfl⟩, rfl,
      ⟨⟨[ingestFor globexTenant "theirs"], [], _, _, rfl, rfl, rfl⟩, rfl⟩, trivial⟩
  refine separate victim (by simp [stored]) written upserted ?_ _ _ intruder made ?_ place "blue"
    (by simp [theirs.1]) (by simp [ours]) overwrites
  · simp [injecting]
  · simp [theirs.2, acmeTenant, TenantValue.acme]

end SharedId

end ImposbroSearch.Publishing
