import ImposbroSearch.Foundation.Delivery
import ImposbroSearch.Foundation.Runs

/-!
# The outbox publisher

Every accepted mutation has a durable outbox row. `_publish_prepared` pushes the
row's envelope through `send(); flush()` and then calls `mark_published`; any
exception on the way is recorded on the row and raised.

Requests and the pending-row publisher share one producer and may work on the
same row at once, so a publication is a ticket whose steps interleave with those
of all others: the send, the completion of its future, the flush, and the update
of the row. The flush of a ticket returns only after the ticket's own future has
completed, with a result or with an error.
-/

namespace ImposbroSearch.Publishing

open ImposbroSearch.Foundation

/-- The columns of `indexing_event_outbox` that publishing reads or writes. -/
structure OutboxRow where
  published : Bool := false
  publishAttempts : ℕ := 0
  failed : Bool := false
  deriving DecidableEq, Repr

inductive Phase where
  | awaitingFlush
  | returned
  | raised
  | closed
  deriving DecidableEq, Repr

/-- One call of `_publish_prepared`. -/
structure Publication where
  eventId : String
  delivery : Delivery
  completed : Bool
  phase : Phase
  deriving DecidableEq, Repr

/-- A row was marked published, and whether the broker had its envelope by then. -/
structure MarkEvent where
  eventId : String
  acceptedThen : Bool
  deriving DecidableEq, Repr

structure PublisherState where
  outbox : String → Option OutboxRow
  publications : ℕ → Option Publication
  accepted : String → Bool
  marks : List MarkEvent

def PublisherState.initial : PublisherState :=
  ⟨fun _ => none, fun _ => none, fun _ => false, []⟩

inductive PublisherAction where
  | prepare (eventId : String)
  | send (ticket : ℕ) (eventId : String) (delivery : Delivery)
  | complete (ticket : ℕ)
  | flush (ticket : ℕ)
  | close (ticket : ℕ) (storeRaises : Bool)

namespace PublisherState

variable (state : PublisherState)

def setPublication (ticket : ℕ) (publication : Publication) : PublisherState :=
  { state with publications := Function.update state.publications ticket (some publication) }

def setRow (eventId : String) (row : OutboxRow) : PublisherState :=
  { state with outbox := Function.update state.outbox eventId (some row) }

/-- `mark_published`: only a row that is still pending changes. -/
def markPublished (eventId : String) : PublisherState :=
  match state.outbox eventId with
  | some row =>
    if row.published then state
    else
      { state.setRow eventId
          { published := true, publishAttempts := row.publishAttempts + 1, failed := false } with
        marks := state.marks ++ [⟨eventId, state.accepted eventId⟩] }
  | none => state

/-- `record_failure` -/
def recordFailure (eventId : String) : PublisherState :=
  match state.outbox eventId with
  | some row =>
    if row.published then state
    else state.setRow eventId
      { row with publishAttempts := row.publishAttempts + 1, failed := true }
  | none => state

/-- The broker, or the client's own retry limit, settles a future. -/
def completeFuture (ticket : ℕ) (publication : Publication) : PublisherState :=
  { state.setPublication ticket { publication with completed := true } with
    accepted := fun eventId =>
      state.accepted eventId ||
        (eventId = publication.eventId && publication.delivery.acknowledged) }

end PublisherState

/-- One step of one publication, or a newly prepared row. -/
def publisherStep (state : PublisherState) : PublisherAction → PublisherState
  | .prepare eventId =>
    match state.outbox eventId with
    | none => state.setRow eventId {}
    | some _ => state
  | .send ticket eventId delivery =>
    match state.publications ticket, state.outbox eventId with
    | none, some _ =>
      state.setPublication ticket
        { eventId := eventId
          delivery := delivery
          completed := false
          phase := if delivery.sendRaises then .raised else .awaitingFlush }
    | _, _ => state
  | .complete ticket =>
    match state.publications ticket with
    | some publication =>
      if publication.completed ∨ publication.delivery.sendRaises then state
      else state.completeFuture ticket publication
    | none => state
  | .flush ticket =>
    match state.publications ticket with
    | some publication =>
      if publication.phase = .awaitingFlush then
        if publication.delivery.flushRaises then
          state.setPublication ticket { publication with phase := .raised }
        else if publication.completed then
          state.setPublication ticket { publication with phase := .returned }
        else state
      else state
    | none => state
  | .close ticket storeRaises =>
    match state.publications ticket with
    | some publication =>
      match publication.phase with
      | .returned =>
        if storeRaises then state.setPublication ticket { publication with phase := .raised }
        else
          (state.setPublication ticket { publication with phase := .closed }).markPublished
            publication.eventId
      | .raised =>
        let closed := state.setPublication ticket { publication with phase := .closed }
        if storeRaises then closed else closed.recordFailure publication.eventId
      | _ => state
    | none => state

/-! ## What the broker and the tickets know about each other -/

/-- The publication's own copy of the event's envelope was acknowledged. -/
def Publication.AcknowledgedFor (publication : Publication) (eventId : String) : Prop :=
  publication.eventId = eventId ∧ publication.completed = true ∧
    publication.delivery.acknowledged = true

/-- Some publication's copy of the event's envelope was acknowledged. -/
def AcknowledgedCopy (state : PublisherState) (eventId : String) : Prop :=
  ∃ ticket publication, state.publications ticket = some publication ∧
    publication.AcknowledgedFor eventId

/-- The broker has exactly the acknowledged envelopes, and a ticket whose flush
returned has a completed future. -/
structure PublisherInv (state : PublisherState) : Prop where
  accepted_iff : ∀ eventId, state.accepted eventId = true ↔ AcknowledgedCopy state eventId
  returned : ∀ ticket publication, state.publications ticket = some publication →
    publication.phase = .returned → publication.completed = true

section Steps

variable {state : PublisherState} {ticket : ℕ} {publication : Publication}

@[simp] theorem setPublication_accepted :
    (state.setPublication ticket publication).accepted = state.accepted := rfl

@[simp] theorem setPublication_outbox :
    (state.setPublication ticket publication).outbox = state.outbox := rfl

@[simp] theorem setPublication_marks :
    (state.setPublication ticket publication).marks = state.marks := rfl

theorem setPublication_same :
    (state.setPublication ticket publication).publications ticket = some publication :=
  Function.update_self ..

theorem setPublication_other {other : ℕ} (distinct : other ≠ ticket) :
    (state.setPublication ticket publication).publications other = state.publications other :=
  Function.update_of_ne distinct ..

/-- Writing a ticket adds its own copy and keeps every other ticket's. -/
theorem acknowledgedCopy_setPublication (eventId : String) :
    AcknowledgedCopy (state.setPublication ticket publication) eventId ↔
      publication.AcknowledgedFor eventId ∨
        ∃ other found, other ≠ ticket ∧ state.publications other = some found ∧
          found.AcknowledgedFor eventId := by
  constructor
  · rintro ⟨other, found, stored, acknowledged⟩
    by_cases same : other = ticket
    · rw [same, setPublication_same] at stored
      cases stored
      exact Or.inl acknowledged
    · rw [setPublication_other same] at stored
      exact Or.inr ⟨other, found, same, stored, acknowledged⟩
  · rintro (acknowledged | ⟨other, found, distinct, stored, acknowledged⟩)
    · exact ⟨ticket, publication, setPublication_same, acknowledged⟩
    · refine ⟨other, found, ?_, acknowledged⟩
      rwa [setPublication_other distinct]

/-- Moving a ticket to another phase changes nothing the broker knows. -/
theorem acknowledgedCopy_phase {phase : Phase}
    (stored : state.publications ticket = some publication) (eventId : String) :
    AcknowledgedCopy (state.setPublication ticket { publication with phase := phase }) eventId ↔
      AcknowledgedCopy state eventId := by
  rw [acknowledgedCopy_setPublication]
  constructor
  · rintro (acknowledged | ⟨other, found, -, kept, acknowledged⟩)
    · exact ⟨ticket, publication, stored, acknowledged⟩
    · exact ⟨other, found, kept, acknowledged⟩
  · rintro ⟨other, found, kept, acknowledged⟩
    by_cases same : other = ticket
    · rw [same, stored] at kept
      cases kept
      exact Or.inl acknowledged
    · exact Or.inr ⟨other, found, same, kept, acknowledged⟩

theorem PublisherInv.setPhase (inv : PublisherInv state)
    (stored : state.publications ticket = some publication) {phase : Phase}
    (sound : phase = .returned → publication.completed = true) :
    PublisherInv (state.setPublication ticket { publication with phase := phase }) where
  accepted_iff eventId := by
    rw [setPublication_accepted, inv.accepted_iff, acknowledgedCopy_phase stored]
  returned other found kept isReturned := by
    by_cases same : other = ticket
    · rw [same, setPublication_same] at kept
      cases kept
      exact sound isReturned
    · rw [setPublication_other same] at kept
      exact inv.returned other found kept isReturned

/-- Rows and marks are not part of the invariant. -/
theorem PublisherInv.congr {other : PublisherState} (inv : PublisherInv state)
    (publications : other.publications = state.publications)
    (accepted : other.accepted = state.accepted) : PublisherInv other where
  accepted_iff eventId := by
    rw [accepted, inv.accepted_iff, AcknowledgedCopy, AcknowledgedCopy, publications]
  returned ticket publication stored := by
    rw [publications] at stored
    exact inv.returned ticket publication stored

theorem markPublished_frame (eventId : String) :
    (state.markPublished eventId).publications = state.publications ∧
      (state.markPublished eventId).accepted = state.accepted := by
  unfold PublisherState.markPublished
  split
  · split_ifs
    · exact ⟨rfl, rfl⟩
    · exact ⟨rfl, rfl⟩
  · exact ⟨rfl, rfl⟩

theorem markPublished_pending {eventId : String} {row : OutboxRow}
    (stored : state.outbox eventId = some row) (pending : row.published = false) :
    (state.markPublished eventId).marks =
      state.marks ++ [⟨eventId, state.accepted eventId⟩] := by
  simp [PublisherState.markPublished, stored, pending]

theorem markPublished_settled {eventId : String}
    (settled : ¬∃ row, state.outbox eventId = some row ∧ row.published = false) :
    (state.markPublished eventId).marks = state.marks := by
  unfold PublisherState.markPublished
  split
  next row stored =>
    rw [if_pos]
    by_contra pending
    exact settled ⟨row, stored, by simpa using pending⟩
  · rfl

theorem recordFailure_frame (eventId : String) :
    (state.recordFailure eventId).publications = state.publications ∧
      (state.recordFailure eventId).accepted = state.accepted ∧
      (state.recordFailure eventId).marks = state.marks := by
  unfold PublisherState.recordFailure
  split
  · split_ifs
    · exact ⟨rfl, rfl, rfl⟩
    · exact ⟨rfl, rfl, rfl⟩
  · exact ⟨rfl, rfl, rfl⟩

theorem PublisherInv.send (inv : PublisherInv state) (fresh : state.publications ticket = none)
    (incomplete : publication.completed = false) (notReturned : publication.phase ≠ .returned) :
    PublisherInv (state.setPublication ticket publication) where
  accepted_iff eventId := by
    rw [setPublication_accepted, inv.accepted_iff, acknowledgedCopy_setPublication]
    constructor
    · rintro ⟨other, found, stored, acknowledged⟩
      refine Or.inr ⟨other, found, ?_, stored, acknowledged⟩
      rintro rfl
      rw [fresh] at stored
      cases stored
    · rintro (⟨-, completed, -⟩ | ⟨other, found, -, stored, acknowledged⟩)
      · rw [incomplete] at completed
        cases completed
      · exact ⟨other, found, stored, acknowledged⟩
  returned other found stored isReturned := by
    by_cases same : other = ticket
    · rw [same, setPublication_same] at stored
      cases stored
      exact absurd isReturned notReturned
    · rw [setPublication_other same] at stored
      exact inv.returned other found stored isReturned

theorem PublisherInv.complete (inv : PublisherInv state)
    (stored : state.publications ticket = some publication)
    (incomplete : publication.completed = false) :
    PublisherInv (state.completeFuture ticket publication) where
  accepted_iff eventId := by
    show (state.accepted eventId || _) = true ↔
      AcknowledgedCopy (state.setPublication ticket { publication with completed := true }) eventId
    rw [acknowledgedCopy_setPublication, Bool.or_eq_true, inv.accepted_iff]
    constructor
    · rintro (⟨other, found, kept, acknowledged⟩ | own)
      · refine Or.inr ⟨other, found, ?_, kept, acknowledged⟩
        rintro rfl
        rw [stored] at kept
        cases kept
        exact absurd acknowledged.2.1 (by simp [incomplete])
      · simp only [Bool.and_eq_true, decide_eq_true_eq] at own
        exact Or.inl ⟨own.1.symm, rfl, own.2⟩
    · rintro (own | ⟨other, found, -, kept, acknowledged⟩)
      · right
        simp only [Bool.and_eq_true, decide_eq_true_eq]
        exact ⟨own.1.symm, own.2.2⟩
      · exact Or.inl ⟨other, found, kept, acknowledged⟩
  returned other found kept isReturned := by
    by_cases same : other = ticket
    · have kept : (state.setPublication ticket
          { publication with completed := true }).publications other = some found := kept
      rw [same, setPublication_same] at kept
      cases kept
      rfl
    · have kept : (state.setPublication ticket
          { publication with completed := true }).publications other = some found := kept
      rw [setPublication_other same] at kept
      exact inv.returned other found kept isReturned

/-- Every step keeps the invariant. -/
theorem PublisherInv.step (inv : PublisherInv state) (action : PublisherAction) :
    PublisherInv (publisherStep state action) := by
  cases action with
  | prepare eventId =>
      simp only [publisherStep]
      split
      · exact inv.congr rfl rfl
      · exact inv
  | send ticket eventId delivery =>
      simp only [publisherStep]
      split
      · refine inv.send ‹_› rfl ?_
        show (if delivery.sendRaises then Phase.raised else .awaitingFlush) ≠ .returned
        split_ifs
        · exact Phase.noConfusion
        · exact Phase.noConfusion
      · exact inv
  | complete ticket =>
      simp only [publisherStep]
      split
      · split_ifs with finished
        · exact inv
        · exact inv.complete ‹_› (by simpa using fun h => finished (Or.inl h))
      · exact inv
  | flush ticket =>
      simp only [publisherStep]
      split
      · split_ifs with waiting raises completed
        · exact inv.setPhase ‹_› fun h => Phase.noConfusion h
        · exact inv.setPhase ‹_› fun _ => completed
        · exact inv
        · exact inv
      · exact inv
  | close ticket storeRaises =>
      simp only [publisherStep]
      split
      next publication stored =>
        split
        · split_ifs
          · exact inv.setPhase stored fun h => Phase.noConfusion h
          · exact (inv.setPhase stored fun h => Phase.noConfusion h).congr
              (markPublished_frame _).1 (markPublished_frame _).2
        · have closed : PublisherInv
              (state.setPublication ticket { publication with phase := .closed }) :=
            inv.setPhase stored fun h => Phase.noConfusion h
          split_ifs
          · exact closed
          · exact closed.congr (recordFailure_frame _).1 (recordFailure_frame _).2.1
        · exact inv
      · exact inv

theorem PublisherInv.initial : PublisherInv .initial where
  accepted_iff eventId := by
    simp [PublisherState.initial, AcknowledgedCopy]
  returned ticket publication stored := by
    cases stored

end Steps

end ImposbroSearch.Publishing
