import ImposbroSearch.Foundation.Delivery
import ImposbroSearch.Publishing.StoreAgreement

/-!
# The replay of the outbox

`publish_pending` goes through a page of pending events in the order of their positions and
publishes each. An exception ends it: the failure is recorded, and what is behind it in the
page waits for the next call. `dispatch_indexing_outbox` calls it again and again, and each
call begins with the same event until that one is published.
-/

namespace ImposbroSearch.Publishing

open ImposbroSearch.Foundation ImposbroSearch.Indexing

variable {Doc : Type}

/-- What happens to an event when it is published: the fate of its record, the text of the
exception if there is one, and the time of the mark. -/
structure SendAttempt where
  delivery : Delivery
  error : String
  now : ℕ

/-- The attempts of a call, by event id. -/
abbrev SendAttempts := String → SendAttempt

variable (attempts : SendAttempts)

/-- `_publish_prepared`: whether it returned, and the store behind it. -/
def publishPrepared (store : PostgresStore Doc) (event : StoredEvent Doc) :
    Bool × PostgresStore Doc :=
  let attempt := attempts event.eventId
  if attempt.delivery.returns then (true, (store.markPublished event.eventId attempt.now).2)
  else (false, (store.recordFailure event.eventId attempt.error).2)

/-- What a call returned, or that it raised. -/
inductive ReplayOutcome where
  | published (count : ℕ)
  | raised
  | invalidLimit
  deriving DecidableEq

/-- The loop of `publish_pending`. -/
def publishEach (published : ℕ) (store : PostgresStore Doc) :
    List (StoredEvent Doc) → ReplayOutcome × PostgresStore Doc
  | [] => (.published published, store)
  | event :: events =>
    let (returned, store) := publishPrepared attempts store event
    if returned then publishEach (published + 1) store events else (.raised, store)

/-- The page that a call reads. -/
def pendingPage (store : PostgresStore Doc) (limit : ℤ) : List (StoredEvent Doc) :=
  match store.listPending limit with
  | .events events => events
  | _ => []

/-- `publish_pending` -/
def publishPending (store : PostgresStore Doc) (limit : ℤ) : ReplayOutcome × PostgresStore Doc :=
  match store.listPending limit with
  | .events events => publishEach attempts 0 store events
  | _ => (.invalidLimit, store)

/-! ## What the loop does to a row -/

/-- A row behind the loop over some events. -/
def replayRow : List (StoredEvent Doc) → EventRow Doc → EventRow Doc
  | [], row => row
  | event :: events, row =>
    let attempt := attempts event.eventId
    if attempt.delivery.returns then
      replayRow events (row.markPublished event.eventId attempt.now)
    else row.recordFailure event.eventId attempt.error

theorem publishEach_store (published : ℕ) (store : PostgresStore Doc)
    (events : List (StoredEvent Doc)) :
    (publishEach attempts published store events).2 =
      { store with tables := store.tables.updateRows (replayRow attempts events) } := by
  induction events generalizing published store with
  | nil =>
      unfold publishEach EventTables.updateRows
      have same : (replayRow attempts [] : EventRow Doc → EventRow Doc) = id := rfl
      rw [same, List.map_id]
  | cons event events ih =>
      unfold publishEach publishPrepared
      by_cases returned : (attempts event.eventId).delivery.returns = true
      · have rows : replayRow attempts (event :: events) = replayRow attempts events ∘
            EventRow.markPublished event.eventId (attempts event.eventId).now := by
          funext row
          simp only [Function.comp_apply, replayRow, returned, if_true]
        simp only [returned, if_true]
        rw [ih, rows]
        unfold PostgresStore.markPublished PostgresStore.updateUnpublished EventTables.updateRows
        simp only [List.map_map]
      · have rows : replayRow attempts (event :: events) =
            EventRow.recordFailure event.eventId (attempts event.eventId).error := by
          funext row
          simp only [replayRow, returned, Bool.false_eq_true, if_false]
        simp only [returned, Bool.false_eq_true, if_false]
        rw [rows]
        rfl

variable {attempts} {row : EventRow Doc} {first rest events : List (StoredEvent Doc)}
  {event : StoredEvent Doc}

theorem replayRow_off (off : ∀ event ∈ events, event.eventId ≠ row.eventId) :
    replayRow attempts events row = row := by
  induction events with
  | nil => rfl
  | cons event events ih =>
      have apart : ¬(row.eventId = event.eventId ∧ row.publishedAt = none) := fun here =>
        off event List.mem_cons_self here.1.symm
      have marked : row.markPublished event.eventId (attempts event.eventId).now = row :=
        if_neg apart
      have failed : row.recordFailure event.eventId (attempts event.eventId).error = row :=
        if_neg apart
      unfold replayRow
      simp only [marked, failed, ih fun other member => off other (List.mem_cons_of_mem _ member),
        ite_self]

theorem replayRow_eventId (attempts : SendAttempts) (events : List (StoredEvent Doc))
    (row : EventRow Doc) : (replayRow attempts events row).eventId = row.eventId := by
  induction events generalizing row with
  | nil => rfl
  | cons event events ih =>
      unfold replayRow
      simp only
      split
      · rw [ih]
        exact (EventTables.markPublished_same _ _ row).2.2.2.2.2.1
      · exact (EventTables.recordFailure_same _ _ row).2.2.2.2.2.1

/-- **The row of an event** is untouched behind an event that raised; else it is marked or
records the failure. -/
theorem replayRow_at (before : ∀ other ∈ first, other.eventId ≠ row.eventId)
    (behind : ∀ other ∈ rest, other.eventId ≠ row.eventId) :
    replayRow attempts (first ++ event :: rest) row =
      if ∀ other ∈ first, (attempts other.eventId).delivery.returns = true then
        if (attempts event.eventId).delivery.returns then
          row.markPublished event.eventId (attempts event.eventId).now
        else row.recordFailure event.eventId (attempts event.eventId).error
      else row := by
  induction first with
  | nil =>
      rw [if_pos (by simp), List.nil_append]
      unfold replayRow
      by_cases returned : (attempts event.eventId).delivery.returns = true
      · simp only [returned, if_true]
        refine replayRow_off fun other member => ?_
        rw [(EventTables.markPublished_same _ _ row).2.2.2.2.2.1]
        exact behind other member
      · simp only [returned, Bool.false_eq_true, if_false]
  | cons other first ih =>
      have apart : ¬(row.eventId = other.eventId ∧ row.publishedAt = none) := fun here =>
        before other List.mem_cons_self here.1.symm
      have marked : row.markPublished other.eventId (attempts other.eventId).now = row :=
        if_neg apart
      have failed : row.recordFailure other.eventId (attempts other.eventId).error = row :=
        if_neg apart
      rw [List.cons_append]
      unfold replayRow
      simp only [marked, failed, ih fun one member => before one (List.mem_cons_of_mem _ member),
        List.forall_mem_cons]
      by_cases returned : (attempts other.eventId).delivery.returns = true
      · simp only [returned, if_true, true_and]
      · simp only [returned, Bool.false_eq_true, if_false, false_and]

/-! ## The rows of a store -/

/-- Event ids and positions are used once. -/
def DistinctRows (outbox : List (EventRow Doc)) : Prop :=
  outbox.Pairwise fun first second =>
    first.eventId ≠ second.eventId ∧ first.globalPosition ≠ second.globalPosition

theorem DistinctRows.map {outbox : List (EventRow Doc)} (distinct : DistinctRows outbox)
    {update : EventRow Doc → EventRow Doc}
    (same : ∀ row, (update row).eventId = row.eventId ∧
      (update row).globalPosition = row.globalPosition) : DistinctRows (outbox.map update) := by
  refine List.pairwise_map.mpr (distinct.imp fun {first second} apart => ?_)
  rw [(same first).1, (same second).1, (same first).2, (same second).2]
  exact apart

theorem DistinctRows.eq_of_eventId {outbox : List (EventRow Doc)} (distinct : DistinctRows outbox)
    {row other : EventRow Doc} (here : row ∈ outbox) (there : other ∈ outbox)
    (same : row.eventId = other.eventId) : row = other := by
  by_contra differs
  have symm : Std.Symm fun first second : EventRow Doc =>
      first.eventId ≠ second.eventId ∧ first.globalPosition ≠ second.globalPosition :=
    ⟨fun _ _ apart => ⟨apart.1.symm, apart.2.symm⟩⟩
  exact (List.Pairwise.forall distinct here there differs).1 same

variable {canonical : Doc → String} {store : PostgresStore Doc}

theorem DistinctRows.insertOutboxEvent (before : DistinctRows store.tables.outbox)
    (tables : EventTables Doc) (distinct : DistinctRows tables.outbox)
    (draft : TracedDraft Doc) (eventId : String) (last now : ℕ) :
    DistinctRows
      (store.insertOutboxEvent canonical tables draft eventId last now).2.tables.outbox := by
  unfold PostgresStore.insertOutboxEvent
  simp only
  split
  · exact before
  next unique =>
    split
    · exact before
    · split
      · exact before
      · refine List.pairwise_append.mpr ⟨distinct, List.pairwise_singleton _ _, ?_⟩
        intro row stored new here
        obtain rfl := List.mem_singleton.mp here
        have apart := not_not.mp unique row stored
        exact ⟨apart.1, apart.2.2.1⟩

/-- **One operation** keeps ids and positions apart. -/
theorem DistinctRows.perform (distinct : DistinctRows store.tables.outbox)
    (stamped : StampedOperation Doc) :
    DistinctRows (store.perform canonical stamped).2.tables.outbox := by
  obtain ⟨operation, eventId, now⟩ := stamped
  cases operation with
  | prepare draft =>
      show DistinctRows (store.prepare canonical draft eventId now).2.tables.outbox
      unfold PostgresStore.prepare
      split
      · exact distinct
      · split
        · exact distinct
        · simp only
          split
          · exact distinct
          · split
            · exact distinct
            · exact distinct.insertOutboxEvent (store.tables.ensureHead draft.identity) distinct _ _ _ _
  | prepareLatestRepair repair =>
      show DistinctRows (store.prepareLatestRepair canonical repair eventId now).2.tables.outbox
      unfold PostgresStore.prepareLatestRepair
      split
      · exact distinct
      · split
        · exact distinct
        · split
          · exact distinct
          · exact distinct.insertOutboxEvent store.tables distinct _ _ _ _
  | markPublished id =>
      refine distinct.map fun row => ?_
      obtain ⟨-, -, position, -, -, same, -⟩ := EventTables.markPublished_same id now row
      exact ⟨same, position⟩
  | recordFailure id error =>
      refine distinct.map fun row => ?_
      obtain ⟨-, -, position, -, -, same, -⟩ := EventTables.recordFailure_same id error row
      exact ⟨same, position⟩
  | listPending => exact distinct
  | pendingCount => exact distinct
  | listLatestByIdentity => exact distinct
  | highWaterMark => exact distinct

/-- The store behind some operations. -/
def replayStore (canonical : Doc → String) (operations : List (StampedOperation Doc)) :
    PostgresStore Doc :=
  operations.foldl (fun store stamped => (store.perform canonical stamped).2) .empty

theorem distinctRows_replayStore (operations : List (StampedOperation Doc)) :
    DistinctRows (replayStore canonical operations).tables.outbox := by
  induction operations using List.reverseRecOn with
  | nil => exact List.Pairwise.nil
  | append_singleton operations stamped ih =>
      unfold replayStore at ih ⊢
      rw [List.foldl_append]
      exact ih.perform stamped

/-- A page has each event once, and its events have unpublished rows. -/
theorem pendingPage_spec (distinct : DistinctRows store.tables.outbox) (limit : ℤ) :
    (pendingPage store limit).Pairwise (fun first second => first.eventId ≠ second.eventId) ∧
      ∀ event ∈ pendingPage store limit, ∃ row ∈ store.tables.outbox,
        rowToEvent row = event ∧ row.publishedAt = none := by
  unfold pendingPage PostgresStore.listPending
  by_cases small : limit < 1
  · rw [if_pos small]
    exact ⟨List.Pairwise.nil, fun _ none_ => absurd none_ List.not_mem_nil⟩
  · rw [if_neg small]
    have perm := List.mergeSort_perm store.pendingRows
      fun first second => decide (first.globalPosition ≤ second.globalPosition)
    constructor
    · refine List.pairwise_map.mpr (List.Pairwise.sublist (List.take_sublist _ _) ?_)
      have apart : store.pendingRows.Pairwise fun first second =>
          first.eventId ≠ second.eventId :=
        (List.Pairwise.sublist List.filter_sublist distinct).imp fun apart => apart.1
      exact (perm.pairwise_iff fun apart => apart.symm).mpr apart
    · intro event listed
      obtain ⟨row, taken, rfl⟩ := List.mem_map.mp listed
      have pending := perm.mem_iff.mp (List.mem_of_mem_take taken)
      obtain ⟨stored, unpublished⟩ := List.mem_filter.mp pending
      exact ⟨row, stored, rfl, of_decide_eq_true unpublished⟩

/-! ## What a call owes -/

/-- The record of the event was acknowledged. -/
def SendAttempts.accepted (attempts : SendAttempts) (event : StoredEvent Doc) : Bool :=
  (attempts event.eventId).delivery.accepted

def SendAttempts.returns (attempts : SendAttempts) (event : StoredEvent Doc) : Bool :=
  (attempts event.eventId).delivery.returns

def StoredEvent.identity (event : StoredEvent Doc) : EventIdentity := event.payload.event.identity

/-- An acknowledged event behind no failed one of its identity. -/
def Deliverable (attempts : SendAttempts) (first : List (StoredEvent Doc)) (event : StoredEvent Doc) :
    Prop :=
  attempts.accepted event = true ∧
    ∀ other ∈ first, other.identity = event.identity → attempts.accepted other = true

/-- What may happen to a row: it is marked if its event is deliverable, it records a failure
if its send failed, or it stays. -/
inductive RowChange (attempts : SendAttempts) (events : List (StoredEvent Doc)) (row : EventRow Doc) :
    EventRow Doc → Prop where
  | same : RowChange attempts events row row
  | published (first rest : List (StoredEvent Doc)) (event : StoredEvent Doc)
      (listed : events = first ++ event :: rest) (deliverable : Deliverable attempts first event)
      (here : row.eventId = event.eventId) :
      RowChange attempts events row
        (row.markPublished event.eventId (attempts event.eventId).now)
  | failed (event : StoredEvent Doc) (listed : event ∈ events)
      (lost : attempts.accepted event = false) (here : row.eventId = event.eventId) :
      RowChange attempts events row
        (row.recordFailure event.eventId (attempts event.eventId).error)

/-- A call that is not blocked by a bad event: every deliverable event of the page is marked,
and nothing changes but marks of deliverable events and failures of failed ones. -/
structure ReplayFair (attempts : SendAttempts) (events : List (StoredEvent Doc))
    (before after : PostgresStore Doc) : Prop where
  changed : List.Forall₂ (RowChange attempts events) before.tables.outbox after.tables.outbox
  marked : ∀ first event rest, events = first ++ event :: rest → Deliverable attempts first event →
    ∀ row ∈ after.tables.outbox, row.eventId = event.eventId → row.publishedAt ≠ none
  others : after.tables.heads = before.tables.heads ∧
    after.tables.tombstones = before.tables.tombstones ∧ after.nextPosition = before.nextPosition

/-- No bad event is in the way: what is published returns exactly if it is acknowledged, and
behind the first event that raises no acknowledged one waits but behind a failed one of its
own identity. -/
structure Unobstructed (attempts : SendAttempts) (events : List (StoredEvent Doc)) : Prop where
  noticed : ∀ first event rest, events = first ++ event :: rest →
    (∀ other ∈ first, attempts.returns other = true) →
      attempts.returns event = attempts.accepted event
  behind : ∀ first event rest, events = first ++ event :: rest →
    (∃ other ∈ first, attempts.returns other = false) → attempts.accepted event = true →
      ∃ other ∈ first, other.identity = event.identity ∧ attempts.accepted other = false

/-! ## When nothing is in the way -/

theorem publishPending_store (attempts : SendAttempts) (store : PostgresStore Doc) (limit : ℤ) :
    (publishPending attempts store limit).2 =
      { store with
        tables := store.tables.updateRows (replayRow attempts (pendingPage store limit)) } := by
  unfold publishPending pendingPage
  cases store.listPending limit with
  | events events => exact publishEach_store attempts 0 store events
  | _ => exact (publishEach_store attempts 0 store []).symm ▸ rfl

/-- What a change of a row says about the record of its event. -/
theorem RowChange.inversion {row' : EventRow Doc} (change : RowChange attempts events row row')
    (here : row.eventId = event.eventId) :
    row' = row ∨
      (attempts.accepted event = true ∧
        row' = row.markPublished event.eventId (attempts event.eventId).now) ∨
      (attempts.accepted event = false ∧
        row' = row.recordFailure event.eventId (attempts event.eventId).error) := by
  cases change with
  | same => exact Or.inl rfl
  | published first rest other listed deliverable there =>
      have same := here.symm.trans there
      refine Or.inr (Or.inl ⟨?_, by rw [same]⟩)
      unfold SendAttempts.accepted
      rw [same]
      exact deliverable.1
  | failed other listed lost there =>
      have same := here.symm.trans there
      refine Or.inr (Or.inr ⟨?_, by rw [same]⟩)
      unfold SendAttempts.accepted
      rw [same]
      exact lost

theorem publishedAt_markPublished (here : row.eventId = event.eventId)
    (pending : row.publishedAt = none) (now : ℕ) :
    (row.markPublished event.eventId now).publishedAt = some now := by
  unfold EventRow.markPublished
  rw [if_pos ⟨here, pending⟩]

theorem recordFailure_pending (here : row.eventId = event.eventId)
    (pending : row.publishedAt = none) (error : String) :
    (row.recordFailure event.eventId error).publishedAt = none ∧
      (row.recordFailure event.eventId error).publishAttempts = row.publishAttempts + 1 := by
  unfold EventRow.recordFailure
  rw [if_pos ⟨here, pending⟩]
  exact ⟨pending, rfl⟩

/-- An event of the page, its row, and what the call does to it. -/
theorem pendingPage_row (attempts : SendAttempts) (distinct : DistinctRows store.tables.outbox) {limit : ℤ}
    (listed : pendingPage store limit = first ++ event :: rest) :
    ∃ row ∈ store.tables.outbox, row.eventId = event.eventId ∧ row.publishedAt = none ∧
      replayRow attempts (pendingPage store limit) row =
        if ∀ other ∈ first, attempts.returns other = true then
          if attempts.returns event then
            row.markPublished event.eventId (attempts event.eventId).now
          else row.recordFailure event.eventId (attempts event.eventId).error
        else row := by
  obtain ⟨apart, rows⟩ := pendingPage_spec distinct limit
  obtain ⟨row, stored, same, pending⟩ := rows event (by rw [listed]; simp)
  have here : row.eventId = event.eventId := by
    rw [← same]
    rfl
  rw [listed, List.pairwise_append, List.pairwise_cons] at apart
  refine ⟨row, stored, here, pending, ?_⟩
  rw [listed]
  exact replayRow_at (fun other member => here ▸ apart.2.2 other member event List.mem_cons_self)
    fun other member => here ▸ (apart.2.1.1 other member).symm

theorem ReplayFair.unobstructed (distinct : DistinctRows store.tables.outbox) {limit : ℤ}
    (fair : ReplayFair attempts (pendingPage store limit) store
      (publishPending attempts store limit).2) :
    Unobstructed attempts (pendingPage store limit) := by
  rw [publishPending_store] at fair
  have known : ∀ {first event rest}, pendingPage store limit = first ++ event :: rest → _ :=
    fun listed => pendingPage_row attempts distinct listed
  have change : ∀ row ∈ store.tables.outbox, RowChange attempts (pendingPage store limit) row
      (replayRow attempts (pendingPage store limit) row) :=
    List.forall₂_same.mp (List.forall₂_map_right_iff.mp fair.changed)
  constructor
  case noticed =>
    intro first event rest listed before
    obtain ⟨row, stored, here, pending, outcome⟩ := known listed
    rw [if_pos before] at outcome
    have changed := (change row stored).inversion here
    rw [outcome] at changed
    cases returned : attempts.returns event with
    | true =>
        rw [returned, if_pos rfl] at changed
        rcases changed with same | ⟨accepted, -⟩ | ⟨-, same⟩
        · have marked := publishedAt_markPublished here pending (attempts event.eventId).now
          rw [same, pending] at marked
          cases marked
        · exact accepted.symm
        · have marked := publishedAt_markPublished here pending (attempts event.eventId).now
          rw [same, (recordFailure_pending here pending _).1] at marked
          cases marked
    | false =>
        rw [returned, if_neg Bool.false_ne_true] at changed
        have failed := recordFailure_pending here pending (attempts event.eventId).error
        rcases changed with same | ⟨-, same⟩ | ⟨lost, -⟩
        · rw [same] at failed
          exact absurd failed.2 (Nat.ne_of_lt (Nat.lt_succ_self _))
        · rw [same, publishedAt_markPublished here pending] at failed
          cases failed.1
        · exact lost.symm
  case behind =>
    intro first event rest listed raised accepted
    by_contra none_
    have deliverable : Deliverable attempts first event := by
      refine ⟨accepted, fun other member same => ?_⟩
      by_contra lost
      exact none_ ⟨other, member, same, by simpa using lost⟩
    obtain ⟨row, stored, here, pending, outcome⟩ := known listed
    rw [if_neg (by
      obtain ⟨other, member, raises⟩ := raised
      intro all
      rw [all other member] at raises
      cases raises)] at outcome
    exact fair.marked first event rest listed deliverable row
      (List.mem_map.mpr ⟨row, stored, outcome⟩) here pending

theorem Unobstructed.fair (distinct : DistinctRows store.tables.outbox) {limit : ℤ}
    (free : Unobstructed attempts (pendingPage store limit)) :
    ReplayFair attempts (pendingPage store limit) store
      (publishPending attempts store limit).2 := by
  rw [publishPending_store]
  have known : ∀ {first event rest}, pendingPage store limit = first ++ event :: rest → _ :=
    fun listed => pendingPage_row attempts distinct listed
  have before : ∀ {first event rest}, pendingPage store limit = first ++ event :: rest →
      (∀ other ∈ first, attempts.returns other = true) →
        ∀ other ∈ first, attempts.accepted other = true := by
    intro first event rest listed returned other member
    obtain ⟨front, back, rfl⟩ := List.append_of_mem member
    rw [List.append_assoc] at listed
    rw [← free.noticed front other _ listed fun one inside =>
      returned one (List.mem_append_left _ inside)]
    exact returned other member
  constructor
  case changed =>
    refine List.forall₂_map_right_iff.mpr (List.forall₂_same.mpr fun row stored => ?_)
    by_cases off : ∀ event ∈ pendingPage store limit, event.eventId ≠ row.eventId
    · rw [replayRow_off off]
      exact .same
    · push Not at off
      obtain ⟨event, member, same⟩ := off
      obtain ⟨first, rest, listed⟩ := List.append_of_mem member
      obtain ⟨found, there, here, pending, outcome⟩ := known listed
      obtain rfl := distinct.eq_of_eventId stored there (same.symm.trans here.symm)
      rw [outcome]
      split
      case isTrue returned =>
        have truthful := free.noticed first event rest listed returned
        split
        case isTrue done =>
          refine .published first rest event listed ⟨truthful ▸ done, fun other inside _ => ?_⟩ here
          exact before listed returned other inside
        case isFalse raises =>
          exact .failed event member (truthful ▸ (Bool.not_eq_true _).mp raises) here
      case isFalse => exact .same
  case marked =>
    intro first event rest listed deliverable row stored same
    obtain ⟨old, there, rfl⟩ := List.mem_map.mp stored
    obtain ⟨found, there', here, pending, outcome⟩ := known listed
    have sameId := replayRow_eventId attempts (pendingPage store limit) old
    obtain rfl := distinct.eq_of_eventId there there' (sameId.symm.trans (same.trans here.symm))
    by_cases returned : ∀ other ∈ first, attempts.returns other = true
    · have done := (free.noticed first event rest listed returned).trans deliverable.1
      rw [outcome, if_pos returned, if_pos done, publishedAt_markPublished here pending]
      exact Option.some_ne_none _
    · push Not at returned
      obtain ⟨other, member, raises⟩ := returned
      obtain ⟨lost, inside, own, refused⟩ := free.behind first event rest listed
        ⟨other, member, (Bool.not_eq_true _).mp raises⟩ deliverable.1
      rw [deliverable.2 lost inside own] at refused
      cases refused
  case others => exact ⟨rfl, rfl, rfl⟩

/-- **A call is blocked by no bad event** exactly if none is in the way, for every store
that operations lead to, every page, and every pattern of failures. -/
theorem replay_fair_iff (canonical : Doc → String) (operations : List (StampedOperation Doc))
    (limit : ℤ) (attempts : SendAttempts) :
    ReplayFair attempts (pendingPage (replayStore canonical operations) limit)
        (replayStore canonical operations)
        (publishPending attempts (replayStore canonical operations) limit).2 ↔
      Unobstructed attempts (pendingPage (replayStore canonical operations) limit) :=
  ⟨ReplayFair.unobstructed (distinctRows_replayStore operations),
    Unobstructed.fair (distinctRows_replayStore operations)⟩

/-! ## One call after the other -/

/-- Calls of `dispatch_indexing_outbox`, which goes on after an exception. -/
def dispatchCycles (limit : ℤ) (cycles : List SendAttempts) (store : PostgresStore Doc) :
    PostgresStore Doc :=
  cycles.foldl (fun store attempts => (publishPending attempts store limit).2) store

theorem pendingPage_failed (store : PostgresStore Doc) (eventId error : String) (limit : ℤ) :
    (pendingPage (store.recordFailure eventId error).2 limit).map StoredEvent.eventId =
      (pendingPage store limit).map StoredEvent.eventId := by
  have rows : (store.recordFailure eventId error).2.pendingRows =
      store.pendingRows.map (EventRow.recordFailure eventId error) := by
    show (store.tables.outbox.map (EventRow.recordFailure eventId error)).filter _ = _
    rw [List.filter_map]
    unfold PostgresStore.pendingRows
    congr 1
    refine List.filter_congr fun row _ => ?_
    unfold Function.comp EventRow.recordFailure
    split
    · rfl
    · rfl
  unfold pendingPage PostgresStore.listPending
  rw [rows, byPosition_map fun row _ => (EventTables.recordFailure_same eventId error row).2.2.1]
  split_ifs
  · rfl
  · simp only [← List.map_take, List.map_map]
    refine List.map_congr_left fun row _ => ?_
    exact (EventTables.recordFailure_same eventId error row).2.2.2.2.2.1

/-- One call that begins with an event that raises: it stays the first of the page, and no
other row changes. -/
theorem publishPending_poison {eventId : String} {limit : ℤ}
    (head : ((pendingPage store limit).map StoredEvent.eventId).head? = some eventId)
    (raises : (attempts eventId).delivery.returns = false) :
    ((pendingPage (publishPending attempts store limit).2 limit).map
        StoredEvent.eventId).head? = some eventId ∧
      (publishPending attempts store limit).2.tables.outbox.filter (·.eventId ≠ eventId) =
        store.tables.outbox.filter (·.eventId ≠ eventId) := by
  have outcome : (publishPending attempts store limit).2 =
      (store.recordFailure eventId (attempts eventId).error).2 := by
    rw [publishPending_store]
    cases page : pendingPage store limit with
    | nil =>
        rw [page] at head
        cases head
    | cons event events =>
        rw [page, List.map_cons, List.head?_cons, Option.some.injEq] at head
        subst head
        have rows : replayRow attempts (event :: events) =
            EventRow.recordFailure event.eventId (attempts event.eventId).error := by
          funext row
          simp only [replayRow, raises, Bool.false_eq_true, if_false]
        rw [rows]
        rfl
  rw [outcome, pendingPage_failed]
  refine ⟨head, ?_⟩
  show (store.tables.outbox.map (EventRow.recordFailure eventId _)).filter _ = _
  rw [List.filter_map]
  have same : ((fun row : EventRow Doc => decide (row.eventId ≠ eventId)) ∘
      EventRow.recordFailure eventId (attempts eventId).error) =
        fun row => decide (row.eventId ≠ eventId) := by
    funext row
    rw [Function.comp_apply, (EventTables.recordFailure_same _ _ row).2.2.2.2.2.1]
  rw [same]
  refine (List.map_congr_left fun row kept => ?_).trans (List.map_id _)
  have apart := of_decide_eq_true (List.mem_filter.mp kept).2
  exact if_neg fun here => apart here.1

/-- **A poison event starves the others.** While the first event of the page raises in every
call, no other row changes, however many calls there are. -/
theorem poison_starves {eventId : String} {limit : ℤ} (cycles : List SendAttempts)
    (head : ((pendingPage store limit).map StoredEvent.eventId).head? = some eventId)
    (poison : ∀ attempts ∈ cycles, (attempts eventId).delivery.returns = false) :
    (dispatchCycles limit cycles store).tables.outbox.filter (·.eventId ≠ eventId) =
      store.tables.outbox.filter (·.eventId ≠ eventId) := by
  induction cycles generalizing store with
  | nil => rfl
  | cons attempts cycles ih =>
      obtain ⟨still, rows⟩ := publishPending_poison head (poison attempts List.mem_cons_self)
      exact (ih still fun other member => poison other (List.mem_cons_of_mem _ member)).trans rows

/-! ## Two notes -/

/-- A document is written, and another one. -/
def twoNotes : List (StampedOperation String) :=
  let written : TracedDraft String :=
    { identity := ⟨"acme", "notes", "n1"⟩
      mutation := .upsert "v1"
      targetClusters := ["europe"]
      routingRevision := 1
      rolloutId := none
      idempotencyKey := "k1" }
  [⟨.prepare written, "evt:1", 1⟩,
    ⟨.prepare { written with identity := ⟨"acme", "notes", "n2"⟩ }, "evt:2", 2⟩]

/-- The first event is larger than the broker allows: its send raises. -/
def firstTooLarge : SendAttempts := fun eventId =>
  if eventId = "evt:1" then ⟨⟨true, false, false⟩, "MessageSizeTooLargeError", 3⟩
  else ⟨⟨false, true, false⟩, "", 3⟩

/-- The second event, of another document, is not published, though it would be acknowledged. -/
theorem first_blocks_second :
    ¬ReplayFair firstTooLarge (pendingPage (replayStore id twoNotes) 100) (replayStore id twoNotes)
      (publishPending firstTooLarge (replayStore id twoNotes) 100).2 := by
  intro fair
  have free := fair.unobstructed (distinctRows_replayStore twoNotes)
  have page : ∃ first second, pendingPage (replayStore id twoNotes) 100 = [first, second] ∧
      firstTooLarge.returns first = false ∧ firstTooLarge.accepted second = true ∧
        first.identity ≠ second.identity := by
    unfold pendingPage PostgresStore.listPending
    rw [if_neg (by decide), byPosition_of_pairwise (by decide)]
    exact ⟨_, _, rfl, by decide, by decide, by decide⟩
  obtain ⟨first, second, listed, raises, accepted, apart⟩ := page
  obtain ⟨other, member, same, -⟩ := free.behind [first] second [] listed
    ⟨first, List.mem_singleton_self first, raises⟩ accepted
  obtain rfl := List.mem_singleton.mp member
  exact apart same

end ImposbroSearch.Publishing
