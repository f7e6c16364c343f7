import ImposbroSearch.Indexing.FifoDelivery
import ImposbroSearch.Publishing.Ingest

/-!
# The order of one physical document without a tenant policy

With the policy off, the tenant of an event is whatever the caller's token
claims. Callers with different claims therefore write one physical document under
different logical keys, with independent sequences, Kafka keys, and checkpoints.
Each key keeps its own order; between keys the last one to arrive wins.
-/

namespace ImposbroSearch.Publishing

open ImposbroSearch.Foundation ImposbroSearch.Indexing ImposbroSearch.Auth

section LastWriter

variable {Doc : Type} {satisfies : String → Doc → Bool} {digest : IndexingEventV2 Doc → String}
  {initial : Storage Doc} {log order : List (IndexingEventV2 Doc)}

/-- The event writes this address of this cluster. -/
def WritesAt (cluster : ClusterName) (address : PhysicalAddress) (event : IndexingEventV2 Doc) :
    Prop :=
  cluster ∈ event.targetClusters ∧ event.identity.address = address

/-- Among `events`, no later event of its logical key writes the place that
`event` writes. -/
structure LastOfKey (events : List (IndexingEventV2 Doc)) (cluster : ClusterName)
    (address : PhysicalAddress) (event : IndexingEventV2 Doc) : Prop where
  member : event ∈ events
  writes : WritesAt cluster address event
  last : ∀ other ∈ events, other.identity.logicalKey = event.identity.logicalKey →
    WritesAt cluster address other → other.sequence ≤ event.sequence

/-- Every mutation at the address leaves its outcome, whatever it finds. -/
def Unfiltered (satisfies : String → Doc → Bool) (events : List (IndexingEventV2 Doc))
    (address : PhysicalAddress) : Prop :=
  ∀ event ∈ events, event.identity.address = address →
    ∀ stored, event.mutation.effect satisfies stored = event.mutation.outcome

variable (satisfies digest) in
/-- **What a place ends with**: nothing has written it, or some key's last
delivered event there has, and its outcome is there. -/
theorem run_documents_last (logged : EventLog {event | event ∈ log}) (fresh : initial.Fresh)
    (fifo : KafkaOrder log order) (cluster : ClusterName) {address : PhysicalAddress}
    (unfiltered : Unfiltered satisfies log address) :
    (∀ event ∈ order, ¬WritesAt cluster address event) ∨
      ∃ event, LastOfKey order cluster address event ∧
        (run (deliver satisfies digest) initial order).documents cluster address =
          event.mutation.outcome := by
  induction order using List.reverseRecOn with
  | nil => exact Or.inl (by simp)
  | append_singleton order event ih =>
      have member : event ∈ log := fifo.sent event (by simp)
      rw [run_snoc_documents satisfies digest logged fresh fifo]
      by_cases written : WritesAt cluster address event ∧ event ∉ order
      · obtain ⟨⟨targeted, here⟩, unseen⟩ := written
        right
        refine ⟨event, ⟨by simp, ⟨targeted, here⟩, ?_⟩, ?_⟩
        · intro other delivered sameKey _
          rcases List.mem_append.mp delivered with delivered | same
          · exact fifo.left.rank_le_of_fresh member unseen delivered sameKey
          · rw [List.mem_singleton.mp same]
        · rw [if_pos ⟨⟨targeted, here.symm⟩, unseen⟩]
          exact unfiltered event member here _
      · rw [if_neg fun h => written ⟨⟨h.1.1, h.1.2.symm⟩, h.2⟩]
        -- the newcomer writes elsewhere, or has been delivered before
        have seen : WritesAt cluster address event → event ∈ order := by
          intro writes
          by_contra unseen
          exact written ⟨writes, unseen⟩
        rcases ih fifo.left with untouched | ⟨writer, last, content⟩
        · left
          intro other delivered writes
          rcases List.mem_append.mp delivered with delivered | same
          · exact untouched other delivered writes
          · obtain rfl := List.mem_singleton.mp same
            exact untouched other (seen writes) writes
        · right
          refine ⟨writer, ⟨List.mem_append_left _ last.member, last.writes, ?_⟩, content⟩
          intro other delivered sameKey writes
          rcases List.mem_append.mp delivered with delivered | same
          · exact last.last other delivered sameKey writes
          · obtain rfl := List.mem_singleton.mp same
            exact last.last other (seen writes) sameKey writes

/-- Deliveries that were made before, or that write elsewhere, leave a place alone. -/
theorem run_documents_quiet (satisfies : String → Doc → Bool)
    (digest : IndexingEventV2 Doc → String) (logged : EventLog {event | event ∈ log})
    (fresh : initial.Fresh) (cluster : ClusterName) (address : PhysicalAddress)
    {more : List (IndexingEventV2 Doc)} (fifo : KafkaOrder log (order ++ more))
    (quiet : ∀ event ∈ more, event ∈ order ∨ ¬WritesAt cluster address event) :
    (run (deliver satisfies digest) initial (order ++ more)).documents cluster address =
      (run (deliver satisfies digest) initial order).documents cluster address := by
  induction more using List.reverseRecOn with
  | nil => rw [List.append_nil]
  | append_singleton more event ih =>
      rw [← List.append_assoc] at fifo ⊢
      rw [run_snoc_documents satisfies digest logged fresh fifo, if_neg,
        ih fifo.left fun other member => quiet other (List.mem_append_left _ member)]
      rintro ⟨⟨targeted, here⟩, unseen⟩
      rcases quiet event (by simp) with seen | elsewhere
      · exact unseen (List.mem_append_left _ seen)
      · exact elsewhere ⟨targeted, here.symm⟩

/-- **Any key can come last**: some complete delivery in Kafka's order ends with
the outcome of that key's last event. -/
theorem exists_order_ending_with (satisfies : String → Doc → Bool)
    (digest : IndexingEventV2 Doc → String) (logged : EventLog {event | event ∈ log})
    (sorted : log.Pairwise fun first second =>
      first.identity.logicalKey = second.identity.logicalKey → first.sequence < second.sequence)
    (fresh : initial.Fresh) {cluster : ClusterName} {address : PhysicalAddress}
    (unfiltered : Unfiltered satisfies log address) {event : IndexingEventV2 Doc}
    (last : LastOfKey log cluster address event) :
    ∃ order, KafkaOrder log order ∧ (∀ other ∈ log, other ∈ order) ∧
      (run (deliver satisfies digest) initial order).documents cluster address =
        event.mutation.outcome := by
  -- every event but this one and its successors, then this one, then everything
  let successor (other : IndexingEventV2 Doc) : Prop :=
    other.identity.logicalKey = event.identity.logicalKey ∧ event.sequence ≤ other.sequence
  have before : KafkaOrder log (log.filter fun other => ¬successor other) := by
    refine Fifo.filter sorted fun record _ picked other _ sameKey lower => ?_
    have lower : other.sequence < record.sequence := lower
    have sameKey : other.identity.logicalKey = record.identity.logicalKey := sameKey
    simp only [successor, decide_eq_true_eq, not_and, not_le] at picked ⊢
    intro key
    have bound := picked (sameKey.symm.trans key)
    omega
  have mem_before : ∀ other, other ∈ (log.filter fun other => ¬successor other) ↔
      other ∈ log ∧ ¬successor other := by
    intro other
    rw [List.mem_filter, decide_eq_true_eq]
  have here : KafkaOrder log ((log.filter fun other => ¬successor other) ++ [event]) := by
    refine before.snoc last.member fun other member sameKey lower => ?_
    have lower : other.sequence < event.sequence := lower
    refine (mem_before other).mpr ⟨member, fun later => ?_⟩
    have bound := later.2
    omega
  have whole : KafkaOrder log log := by
    have all := Fifo.filter (p := fun _ => true) sorted fun _ _ _ _ _ _ _ => rfl
    rwa [List.filter_true] at all
  refine ⟨_, here.append whole, fun other member => List.mem_append_right _ member, ?_⟩
  rw [run_documents_quiet satisfies digest logged fresh cluster address (here.append whole),
    run_snoc_documents satisfies digest logged fresh here, if_pos]
  · exact unfiltered event last.member last.writes.2 _
  · refine ⟨⟨last.writes.1, last.writes.2.symm⟩, fun early => ?_⟩
    exact ((mem_before event).mp early).2 ⟨rfl, le_refl _⟩
  · intro other member
    by_cases later : successor other
    · by_cases same : other = event
      · rw [same]
        exact Or.inl (by simp)
      · right
        intro writes
        have bound := last.last other member later.1 writes
        exact same (logged.sequence_inj other member event last.member later.1
          (le_antisymm bound later.2))
    · exact Or.inl (List.mem_append_left _ ((mem_before other).mpr ⟨member, later⟩))

end LastWriter

section PolicyOff

variable {canonical : Document → String} {enterprise : Bool} {policy : String → TenantPolicy}
  {requests : List WriteRequest}

/-- The events stored for `requests`, in the order of their acceptance. -/
abbrev documentEvents (canonical : Document → String) (enterprise : Bool)
    (policy : String → TenantPolicy) (requests : List WriteRequest) :
    List (IndexingEventV2 Document) :=
  (storeAfter canonical (fun _ document => document) enterprise policy requests).events

variable (canonical enterprise policy requests) in
/-- Where the policy is off no mutation depends on what it finds. -/
theorem unfiltered_off (satisfies : String → Document → Bool) {address : PhysicalAddress}
    (off : (policy address.collection).mode = .off) :
    Unfiltered satisfies (documentEvents canonical enterprise policy requests) address := by
  unfold Unfiltered
  refine forall_events_storeAfter fun request draft drafted store here stored => ?_
  have here : draft.identity.address = address := here
  show draft.mutation.effect satisfies stored = draft.mutation.outcome
  obtain ⟨collection, document, -, ⟨indexed, -, mutation⟩ | ⟨-, mutation⟩⟩ :=
    requestDraft_ok drafted
  · rw [mutation]
    rfl
  · have same : request.collection = address.collection := by
      rw [← collection, ← here]
      rfl
    have unfiltered := (authorize_off (same ▸ off) request.caller.tenants []
      draft.identity.documentId).2
    rw [mutation, unfiltered]
    rfl

/-- `last` is the last event accepted for `address`. -/
def LastAccepted (events : List (IndexingEventV2 Document)) (address : PhysicalAddress)
    (last : IndexingEventV2 Document) : Prop :=
  ∃ pre post, events = pre ++ last :: post ∧ last.identity.address = address ∧
    ∀ event ∈ post, event.identity.address ≠ address

/-- **When the last accepted mutation wins.** Under a policy that is off, every
complete delivery in Kafka's order leaves the effect of the last accepted mutation
on all its targets exactly when, on each of them, the last mutation of every
logical key that writes the document has the same outcome. -/
theorem last_mutation_wins_iff (canonical : Document → String)
    (satisfies : String → Document → Bool) (digest : IndexingEventV2 Document → String)
    (enterprise : Bool) (policy : String → TenantPolicy) (requests : List WriteRequest)
    (initial : Storage Document) (fresh : initial.Fresh) (address : PhysicalAddress)
    (off : (policy address.collection).mode = .off) (last : IndexingEventV2 Document)
    (accepted : LastAccepted (documentEvents canonical enterprise policy requests) address last) :
    (∀ order, KafkaOrder (documentEvents canonical enterprise policy requests) order →
        (∀ event ∈ documentEvents canonical enterprise policy requests, event ∈ order) →
          ∀ cluster ∈ last.targetClusters,
            (run (deliver satisfies digest) initial order).documents cluster address =
              last.mutation.outcome) ↔
      ∀ cluster ∈ last.targetClusters, ∀ event,
        LastOfKey (documentEvents canonical enterprise policy requests) cluster address event →
          event.mutation.outcome = last.mutation.outcome := by
  have sound : (storeAfter canonical (fun _ document => document) enterprise policy
    requests).Sound := sound_storeAfter requests
  have unfiltered := unfiltered_off canonical enterprise policy requests satisfies off
  obtain ⟨pre, post, split, place, -⟩ := accepted
  have member : last ∈ documentEvents canonical enterprise policy requests := by simp [split]
  constructor
  · intro wins cluster targeted event isLast
    obtain ⟨order, fifo, complete, content⟩ :=
      exists_order_ending_with satisfies digest sound.eventLog sound.sorted fresh unfiltered isLast
    rw [← content]
    exact wins order fifo complete cluster targeted
  · intro agree order fifo complete cluster targeted
    rcases run_documents_last satisfies digest sound.eventLog fresh fifo cluster unfiltered with
      untouched | ⟨event, isLast, content⟩
    · exact absurd ⟨targeted, place⟩ (untouched last (complete last member))
    · rw [content]
      refine agree cluster targeted event ⟨fifo.sent event isLast.member, isLast.writes, ?_⟩
      exact fun other inLog => isLast.last other (complete other inLog)

end PolicyOff

/-! ## One document, two claims -/

section TwoClaims

private def noPolicy (_ : String) : TenantPolicy := ⟨.off, .standard⟩

private def titled (title : String) : Document := [("id", .string "a1"), ("title", .string title)]

private def articleRoute : Route where
  targetClusters := ["green"]
  routingRevision := 1
  rolloutId := none

/-- A caller whose token claims `claim` ingests the article. -/
private def ingestClaiming (claim title : String) : WriteRequest where
  caller := ⟨claim, none⟩
  collection := "articles"
  body := .document (titled title)
  indexingRoute := fun _ => some articleRoute
  deleteRoute := some articleRoute
  idempotencyKey := "request-" ++ title

private def constantText (_ : Document) : String := ""

private def noMatch (_ : String) (_ : Document) : Bool := false

private def eventIdText (event : IndexingEventV2 Document) : String := event.eventId

private def articleAddress : PhysicalAddress := ⟨"articles", "a1"⟩

/-- The second caller's document can be replaced by the first caller's older one. -/
theorem older_claim_overtakes :
    ¬∀ last, LastAccepted (documentEvents constantText false noPolicy
          [ingestClaiming "acme" "old", ingestClaiming "globex" "new"]) articleAddress last →
        ∀ order, KafkaOrder (documentEvents constantText false noPolicy
            [ingestClaiming "acme" "old", ingestClaiming "globex" "new"]) order →
          (∀ event ∈ documentEvents constantText false noPolicy
            [ingestClaiming "acme" "old", ingestClaiming "globex" "new"], event ∈ order) →
          ∀ cluster ∈ last.targetClusters,
            (run (deliver noMatch eventIdText) Storage.blank order).documents cluster
              articleAddress = last.mutation.outcome := by
  intro wins
  have sound : (storeAfter constantText (fun _ document => document) false noPolicy
    [ingestClaiming "acme" "old", ingestClaiming "globex" "new"]).Sound := sound_storeAfter _
  obtain ⟨older, newer, stored, places, targets, keys, old, new⟩ : ∃ older newer,
      documentEvents constantText false noPolicy
          [ingestClaiming "acme" "old", ingestClaiming "globex" "new"] = [older, newer] ∧
        (older.identity.address = articleAddress ∧ newer.identity.address = articleAddress) ∧
        (older.targetClusters = ["green"] ∧ newer.targetClusters = ["green"]) ∧
        newer.identity.logicalKey ≠ older.identity.logicalKey ∧
        older.mutation.outcome = some (titled "old") ∧
        newer.mutation.outcome = some (titled "new") :=
    ⟨_, _, rfl, ⟨rfl, rfl⟩, ⟨rfl, rfl⟩, by decide, rfl, rfl⟩
  have isLast : LastOfKey (documentEvents constantText false noPolicy
      [ingestClaiming "acme" "old", ingestClaiming "globex" "new"]) "green" articleAddress older := by
    refine ⟨by simp [stored], ⟨by simp [targets], places.1⟩, fun other member sameKey _ => ?_⟩
    rw [stored, List.mem_cons, List.mem_singleton] at member
    rcases member with rfl | rfl
    · exact le_refl _
    · exact absurd sameKey keys
  obtain ⟨order, fifo, complete, content⟩ := exists_order_ending_with noMatch eventIdText
    sound.eventLog sound.sorted Storage.blank_fresh
    (unfiltered_off constantText false noPolicy _ noMatch rfl) isLast
  have won := wins newer ⟨[older], [], stored, places.2, by simp⟩ order fifo complete "green"
    (by simp [targets])
  rw [content, old, new] at won
  simp [titled] at won

theorem last_mutation_wins_single :
    ∃ last, documentEvents constantText false noPolicy [ingestClaiming "acme" "new"] = [last] ∧
      (run (deliver noMatch eventIdText) Storage.blank [last]).documents "green"
        articleAddress = last.mutation.outcome := by
  obtain ⟨last, stored, place, target⟩ : ∃ last,
      documentEvents constantText false noPolicy [ingestClaiming "acme" "new"] = [last] ∧
        last.identity.address = articleAddress ∧ last.targetClusters = ["green"] :=
    ⟨_, rfl, rfl, rfl⟩
  have accepted : LastAccepted (documentEvents constantText false noPolicy
      [ingestClaiming "acme" "new"]) articleAddress last := ⟨[], [], stored, place, by simp⟩
  have only : ∀ event ∈ documentEvents constantText false noPolicy [ingestClaiming "acme" "new"],
      event = last := by simp [stored]
  have wins := (last_mutation_wins_iff constantText noMatch eventIdText false noPolicy
    [ingestClaiming "acme" "new"] Storage.blank Storage.blank_fresh articleAddress rfl last
    accepted).mpr fun cluster _ event isLast => by rw [only event isLast.member]
  have order : KafkaOrder (documentEvents constantText false noPolicy
      [ingestClaiming "acme" "new"]) ([] ++ [last]) := by
    refine Fifo.nil.snoc (by simp [stored]) fun other member _ lower => ?_
    rw [only other member] at lower
    exact absurd lower (lt_irrefl _)
  exact ⟨last, stored, wins [last] order (by simp [stored]) "green" (by simp [target])⟩

end TwoClaims

end ImposbroSearch.Publishing
