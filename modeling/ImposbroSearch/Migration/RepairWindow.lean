import ImposbroSearch.Foundation.Runs
import ImposbroSearch.Publishing.Repair

/-!
# The repair window of a routing backfill

After the copy a backfill repairs what was written meanwhile: each identity of the
collection with an event between the barrier and the end of the window is published
again to the candidate clusters. A step lists a page of latest events behind the
saved cursor, repairs them one by one, and saves the position of the last one. The
checkpoint is written by compare and swap on its version, the repairs before it are
not taken back, and a step can stop anywhere in between: by a crash, or by an error of
Kafka or of the deletion ledger.

Other writers go on. What they add lies behind the end of the window.
-/

namespace ImposbroSearch.Migration

open ImposbroSearch.Foundation ImposbroSearch.Indexing ImposbroSearch.Publishing

variable {Doc : Type}

/-- The rollout, its collection, and `repair_through_position`. A rollout id has no
separator. -/
structure RepairScope where
  rolloutId : String
  collection : String
  through : ℕ
  plain : '\x1f' ∉ rolloutId.toList := by decide

/-- Where a repair goes: the clusters of the candidate policy and the applied revision. -/
structure RepairRoute where
  targetClusters : List ClusterName
  routingRevision : ℕ
  targets_ne : targetClusters ≠ [] := by decide
  targets_nodup : targetClusters.Nodup := by decide

inductive StepStage (Doc : Type) where
  | listing
  | repairing (pending : List (PreparedIndexingEvent Doc)) (nextCursor : ℕ)

/-- A step under way, with the checkpoint it has read. -/
structure RepairStep (Doc : Type) where
  cursor : ℕ
  version : ℕ
  maxDocuments : ℕ
  route : RepairRoute
  stage : StepStage Doc := .listing

/-- The outbox, the checkpoint of the rollout, and the steps under way. -/
structure RepairWindow (Doc : Type) where
  store : EventStore Doc
  cursor : ℕ
  complete : Bool
  version : ℕ := 0
  steps : ℕ → Option (RepairStep Doc) := fun _ => none

inductive RepairAction (Doc : Type) where
  | publish (draft : IndexingEventDraft Doc)
  | publishRepair (repair : LatestRepairDraft)
  | markPublished (eventId : String)
  | start (id maxDocuments : ℕ) (route : RepairRoute)
  | advance (id : ℕ)
  | interrupt (id : ℕ)

namespace RepairScope

variable (scope : RepairScope)

/-- The hash of the key under which an identity is repaired. -/
def repairHash (identity : EventIdentity) : String :=
  repairKeyHash scope.rolloutId identity scope.through

/-- The repair of a listed event. -/
def repairDraft (route : RepairRoute) (event : PreparedIndexingEvent Doc) : LatestRepairDraft where
  identityKey := event.event.identity.logicalKey
  idempotencyKey :=
    repairIdempotencyKey scope.rolloutId scope.through event.event.identity.logicalKey
  targetClusters := route.targetClusters
  routingRevision := route.routingRevision
  rolloutId := some scope.rolloutId
  targets_ne := route.targets_ne
  targets_nodup := route.targets_nodup

end RepairScope

namespace RepairWindow

variable (canonical : Doc → String) (scope : RepairScope) (state : RepairWindow Doc)

/-- The window is opened with the cursor at the source barrier. -/
def opened (store : EventStore Doc) (barrier : ℕ) : RepairWindow Doc where
  store
  cursor := barrier
  complete := scope.through ≤ barrier

/-- The step goes on with `stage`. -/
def goOn (id : ℕ) (repair : RepairStep Doc) (stage : StepStage Doc) : RepairWindow Doc :=
  { state with
    steps := fun other => if other = id then some { repair with stage } else state.steps other }

/-- The step is over. -/
def drop (id : ℕ) : RepairWindow Doc :=
  { state with steps := fun other => if other = id then none else state.steps other }

/-- `record_backfill_progress` and its commit, against the version the step has read. -/
def commit (id : ℕ) (repair : RepairStep Doc) (nextCursor : ℕ) : RepairWindow Doc :=
  if repair.version = state.version then
    { state.drop id with
      cursor := nextCursor
      complete := scope.through ≤ nextCursor
      version := state.version + 1 }
  else state.drop id

/-- `run_routing_backfill_step`, from one of its calls to the next. Whatever a call
raises ends the step. -/
def advance (id : ℕ) : RepairWindow Doc :=
  match state.steps id with
  | none => state
  | some repair =>
    match repair.stage with
    | .listing =>
      match state.store.listLatestByIdentity repair.cursor scope.through repair.maxDocuments with
      | .error _ => state.drop id
      | .ok events => state.goOn id repair (.repairing events
          (lastKey PreparedIndexingEvent.globalPosition scope.through events))
    | .repairing (event :: pending) nextCursor =>
      if event.event.identity.collection ≠ scope.collection then
        state.goOn id repair (.repairing pending nextCursor)
      else
        match state.store.prepareLatestRepair (scope.repairDraft repair.route event) with
        | .error _ => state.drop id
        | .ok (_, store) =>
          { state.goOn id repair (.repairing pending nextCursor) with store }
    | .repairing [] nextCursor => state.commit scope id repair nextCursor

/-- A completed backfill has left its phase, so no step starts any more. -/
def start (id maxDocuments : ℕ) (route : RepairRoute) : RepairWindow Doc :=
  if state.complete ∨ (state.steps id).isSome then state
  else
    { state with
      steps := fun other =>
        if other = id then
          some { cursor := state.cursor, version := state.version, maxDocuments, route }
        else state.steps other }

/-- An operation of another writer. -/
def write (result : Except EventStoreError (PreparedIndexingEvent Doc × EventStore Doc)) :
    RepairWindow Doc :=
  match result with
  | .error _ => state
  | .ok (_, store) => { state with store }

def step : RepairAction Doc → RepairWindow Doc
  | .publish draft => state.write (state.store.prepare canonical draft)
  | .publishRepair repair => state.write (state.store.prepareLatestRepair repair)
  | .markPublished eventId => { state with store := state.store.markPublished eventId }
  | .start id maxDocuments route => state.start id maxDocuments route
  | .advance id => state.advance scope id
  | .interrupt id => state.drop id

end RepairWindow

/-- Clients do not use the keys of the repairs, and the other repairs are those of
other windows. -/
def RepairAction.Admissible (scope : RepairScope) : RepairAction Doc → Prop
  | .publish draft => ∀ identity,
    indexingIdempotencyKeyHash draft.identity draft.idempotencyKey ≠ scope.repairHash identity
  | .publishRepair repair => ∃ rolloutId through, '\x1f' ∉ rolloutId.toList ∧
    (rolloutId ≠ scope.rolloutId ∨ through ≠ scope.through) ∧
      repair.idempotencyKey = repairIdempotencyKey rolloutId through repair.identityKey
  | _ => True

/-! ## Keys -/

/-- Texts that hold no separator, as the patterns of collections and document ids ensure. -/
def PlainNames (identity : EventIdentity) : Prop :=
  '\x1f' ∉ identity.collection.toList ∧ '\x1f' ∉ identity.documentId.toList

/-- With plain names a logical key belongs to one identity. -/
theorem identity_eq_of_logicalKey {first second : EventIdentity} (plain : PlainNames first)
    (otherPlain : PlainNames second) (same : first.logicalKey = second.logicalKey) :
    first = second := by
  have text := congrArg String.toList same
  have split : ∀ identity : EventIdentity, identity.logicalKey.toList =
      (identity.tenantId.toList ++ '\x1f' :: identity.collection.toList) ++
        '\x1f' :: identity.documentId.toList := by
    intro identity
    have separator : identitySeparator.toList = ['\x1f'] := rfl
    simp only [EventIdentity.logicalKey, String.intercalate_cons_cons,
      String.intercalate_singleton, String.toList_append, separator, List.append_assoc,
      List.cons_append, List.nil_append]
  rw [split, split] at text
  obtain ⟨front, document⟩ := cut_inj plain.2 otherPlain.2 text
  obtain ⟨tenant, collection⟩ := cut_inj plain.1 otherPlain.1 front
  ext1
  · exact String.toList_inj.mp tenant
  · exact String.toList_inj.mp collection
  · exact String.toList_inj.mp document

/-- **Repairs of different windows have different keys.** -/
theorem repairKeyHash_ne {rolloutId otherId : String} {first second : EventIdentity}
    {through other : ℕ} (plain : '\x1f' ∉ rolloutId.toList) (otherPlain : '\x1f' ∉ otherId.toList)
    (differs : rolloutId ≠ otherId ∨ through ≠ other) :
    repairKeyHash rolloutId first through ≠ repairKeyHash otherId second other := by
  intro same
  have frame : ∀ (id : String) (identity : EventIdentity) (position : ℕ),
      (repairKeyHash id identity position).toList = identity.logicalKey.toList ++ '\x1f' ::
        ("rollout-repair:".toList ++ ((id.toList ++ ':' :: (Nat.repr position).toList) ++
          ':' :: identity.logicalKey.toList)) := by
    intro id identity position
    rw [repairKeyHash_toList]
    simp only [String.toList_append, List.append_assoc, List.cons_append]
    rfl
  have clean : ∀ (id : String) (position : ℕ), '\x1f' ∉ id.toList →
      '\x1f' ∉ id.toList ++ ':' :: (Nat.repr position).toList := by
    intro id position plain member
    rcases List.mem_append.mp member with here | later
    · exact plain here
    · rcases List.mem_cons.mp later with colon | digit
      · exact absurd colon (by decide)
      · exact separator_not_mem_repr position digit
  have body : rolloutId.toList ++ ':' :: (Nat.repr through).toList =
      otherId.toList ++ ':' :: (Nat.repr other).toList := by
    have text := congrArg String.toList same
    rw [frame, frame] at text
    have marked : ':' ≠ '\x1f' := by decide
    rcases Nat.le_total first.logicalKey.toList.length second.logicalKey.toList.length with
      shorter | longer
    · exact (framed_inj marked (clean _ _ plain) shorter text).2
    · exact (framed_inj marked (clean _ _ otherPlain) longer text.symm).2.symm
  have digits : ∀ position, ':' ∉ (Nat.repr position).toList := by
    intro position member
    rw [Nat.toList_repr] at member
    exact absurd (Nat.isDigit_of_mem_toDigits (by decide) (by decide) member) (by decide)
  obtain ⟨ids, positions⟩ := cut_inj (digits through) (digits other) body
  rcases differs with differs | differs
  · exact differs (String.toList_inj.mp ids)
  · exact differs (Nat.repr_injective (String.toList_inj.mp positions))

end ImposbroSearch.Migration
