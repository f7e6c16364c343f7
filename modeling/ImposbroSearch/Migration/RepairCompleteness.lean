import ImposbroSearch.Migration.RepairWindow

/-!
# A completed window has repaired every identity once

The events of the window never change, since writers add behind its end. An identity
with an event in it is repaired, or has an event behind the cursor; a step moves the
cursor only past identities it has repaired. Each commit moves the cursor, so a window
takes no more of them than it has events.
-/

namespace ImposbroSearch.Migration

open ImposbroSearch.Foundation ImposbroSearch.Indexing ImposbroSearch.Publishing

variable {Doc : Type} {scope : RepairScope} {initial store next : EventStore Doc}

/-! ## The outbox while the window is open -/

/-- A clone of an event of the identity that no event of the window comes after. -/
def ClonesNewest (scope : RepairScope) (initial store : EventStore Doc)
    (event : IndexingEventV2 Doc) (identity : EventIdentity) : Prop :=
  event.identity.logicalKey = identity.logicalKey ∧ event.rolloutId = some scope.rolloutId ∧
    ∃ source ∈ store.events, source.identity.logicalKey = identity.logicalKey ∧
      event.mutation = source.mutation ∧ ∀ position other, initial.At position other →
        position ≤ scope.through → other.identity.logicalKey = identity.logicalKey →
          other.sequence ≤ source.sequence

/-- The rows stored under the repair key of an identity. -/
def repairsOf (scope : RepairScope) (store : EventStore Doc) (identity : EventIdentity) :
    List (PreparedIndexingEvent Doc) :=
  store.rows.filter fun row => row.idempotencyKeyHash = scope.repairHash identity

/-- The outbox still has the window it had, and its repairs are clones, one for each
identity at most. -/
structure Extends (scope : RepairScope) (initial store : EventStore Doc) : Prop where
  sound : store.Sound
  mark : scope.through ≤ store.highWaterMark
  within : ∀ position event, position ≤ scope.through →
    (store.At position event ↔ initial.At position event)
  once : ∀ identity, (repairsOf scope store identity).length ≤ 1
  clones : ∀ row ∈ store.rows, ∀ identity, row.idempotencyKeyHash = scope.repairHash identity →
    ClonesNewest scope initial store row.event identity

/-- The identity has been repaired. -/
def Repaired (scope : RepairScope) (store : EventStore Doc) (identity : EventIdentity) : Prop :=
  ∃ row ∈ store.rows, row.idempotencyKeyHash = scope.repairHash identity

/-- What an operation does to the outbox: it marks rows as published, or inserts a row
under a new key; under a repair key it inserts a clone of the newest event. -/
inductive Evolves (scope : RepairScope) (store : EventStore Doc) : EventStore Doc → Prop where
  | same : Evolves scope store store
  | marked (eventId : String) : Evolves scope store (store.markPublished eventId)
  | inserted (draft : IndexingEventDraft Doc)
      (unused : store.existingForKey
        (indexingIdempotencyKeyHash draft.identity draft.idempotencyKey) = none)
      (clones : ∀ identity, indexingIdempotencyKeyHash draft.identity draft.idempotencyKey =
        scope.repairHash identity → draft.identity.logicalKey = identity.logicalKey ∧
          draft.rolloutId = some scope.rolloutId ∧ ∃ source ∈ store.events,
            source.identity.logicalKey = identity.logicalKey ∧ draft.mutation = source.mutation ∧
              ∀ other ∈ store.events, other.identity.logicalKey = identity.logicalKey →
                other.sequence ≤ source.sequence) :
      Evolves scope store (store.insertOutboxEvent draft)

theorem Evolves.events {event : IndexingEventV2 Doc} (evolves : Evolves scope store next)
    (member : event ∈ store.events) : event ∈ next.events := by
  cases evolves with
  | same => exact member
  | marked eventId => rwa [EventStore.events_markPublished]
  | inserted draft => exact EventStore.mem_events_insert.mpr (Or.inl member)

theorem ClonesNewest.evolves {event : IndexingEventV2 Doc} {identity : EventIdentity}
    (clones : ClonesNewest scope initial store event identity)
    (evolves : Evolves scope store next) : ClonesNewest scope initial next event identity := by
  obtain ⟨key, rollout, source, member, sourceKey, same, newest⟩ := clones
  exact ⟨key, rollout, source, evolves.events member, sourceKey, same, newest⟩

theorem Evolves.repaired {identity : EventIdentity} (evolves : Evolves scope store next)
    (repaired : Repaired scope store identity) : Repaired scope next identity := by
  obtain ⟨row, stored, same⟩ := repaired
  cases evolves with
  | same => exact ⟨row, stored, same⟩
  | marked eventId =>
      refine ⟨_, List.mem_map_of_mem stored, ?_⟩
      split_ifs
      · exact same
      · exact same
  | inserted draft => exact ⟨row, List.mem_append_left _ stored, same⟩

theorem repairsOf_markPublished (identity : EventIdentity) (eventId : String) :
    (repairsOf scope (store.markPublished eventId) identity).length =
      (repairsOf scope store identity).length := by
  unfold repairsOf EventStore.markPublished
  rw [List.filter_map, List.length_map]
  congr 2
  funext row
  simp only [Function.comp_apply]
  split_ifs
  · rfl
  · rfl

/-- **The window stays as it is.** -/
theorem Extends.evolves (extends_ : Extends scope initial store)
    (evolves : Evolves scope store next) : Extends scope initial next := by
  cases evolves with
  | same => exact extends_
  | marked eventId =>
      constructor
      case sound => exact extends_.sound.markPublished eventId
      case mark =>
        rw [EventStore.highWaterMark_markPublished]
        exact extends_.mark
      case within =>
        intro position event here
        rw [EventStore.at_markPublished]
        exact extends_.within position event here
      case once =>
        intro identity
        rw [repairsOf_markPublished]
        exact extends_.once identity
      case clones =>
        intro row member identity same
        obtain ⟨before, stored, event, -, key, -⟩ :=
          EventStore.mem_markPublished store eventId member
        rw [event]
        exact (extends_.clones before stored identity (key ▸ same)).evolves (.marked eventId)
  | inserted draft unused clones =>
      have step : Evolves scope store (store.insertOutboxEvent draft) := .inserted draft unused clones
      constructor
      case sound => exact extends_.sound.insert
      case mark =>
        rw [EventStore.highWaterMark_insert]
        exact Nat.le_succ_of_le extends_.mark
      case within =>
        intro position event here
        rw [EventStore.at_insert, extends_.within position event here, or_iff_left]
        rintro ⟨rfl, -⟩
        have mark := extends_.mark
        omega
      case once =>
        intro identity
        unfold repairsOf EventStore.insertOutboxEvent
        rw [List.filter_append, List.length_append]
        by_cases here : indexingIdempotencyKeyHash draft.identity draft.idempotencyKey =
            scope.repairHash identity
        · -- The key is new, so no row was stored under it.
          have none : store.rows.filter (fun row =>
              row.idempotencyKeyHash = scope.repairHash identity) = [] := by
            rw [List.filter_eq_nil_iff]
            intro row stored same
            have absent := List.find?_eq_none.mp unused row stored
            rw [here] at absent
            exact absent same
          rw [none, List.length_nil, Nat.zero_add]
          exact List.length_filter_le _ _
        · have other : [store.nextRow draft].filter (fun row =>
              row.idempotencyKeyHash = scope.repairHash identity) = [] := by
            simpa [EventStore.nextRow] using here
          rw [other]
          exact extends_.once identity
      case clones =>
        intro row member identity same
        rcases List.mem_append.mp member with old | new
        · exact (extends_.clones row old identity same).evolves step
        · obtain rfl := List.mem_singleton.mp new
          obtain ⟨key, rollout, source, stored, sourceKey, mutation, newest⟩ := clones identity same
          refine ⟨key, rollout, source, step.events stored, sourceKey, mutation, ?_⟩
          intro position other earlier within otherKey
          exact newest other ((extends_.within position other within).mpr earlier).mem otherKey

/-! ## The operations on the outbox -/

theorem evolves_prepare {canonical : Doc → String} {draft : IndexingEventDraft Doc}
    {row : PreparedIndexingEvent Doc}
    (avoids : ∀ identity,
      indexingIdempotencyKeyHash draft.identity draft.idempotencyKey ≠ scope.repairHash identity)
    (prepared : store.prepare canonical draft = .ok (row, next)) : Evolves scope store next := by
  unfold EventStore.prepare at prepared
  split at prepared
  · split_ifs at prepared
    cases prepared
    exact .same
  next unused =>
    cases prepared
    exact .inserted draft unused fun identity same => absurd same (avoids identity)

/-- A repair clones the newest event of its identity, unless it is in the outbox. -/
theorem evolves_repair {repair : LatestRepairDraft} {row : PreparedIndexingEvent Doc}
    (fits : ∀ source ∈ store.rows, source.event.identity.logicalKey = repair.identityKey →
      ∀ identity, indexingIdempotencyKeyHash source.event.identity repair.idempotencyKey =
        scope.repairHash identity → repair.rolloutId = some scope.rolloutId ∧
          source.event.identity.logicalKey = identity.logicalKey)
    (repaired : store.prepareLatestRepair repair = .ok (row, next)) : Evolves scope store next := by
  obtain ⟨source, stored, key, newest, ⟨rfl, -⟩ | ⟨-, rfl, unused⟩⟩ :=
    EventStore.prepareLatestRepair_ok repaired
  · exact .same
  · refine .inserted _ unused fun identity same => ?_
    obtain ⟨rollout, sourceKey⟩ := fits source stored key identity same
    refine ⟨sourceKey, rollout, source.event, List.mem_map_of_mem stored, sourceKey, rfl, ?_⟩
    intro other member otherKey
    obtain ⟨otherRow, otherStored, rfl⟩ := List.mem_map.mp member
    exact newest otherRow otherStored (otherKey.trans (sourceKey.symm.trans key))

theorem evolves_publishRepair {repair : LatestRepairDraft} {row : PreparedIndexingEvent Doc}
    (admitted : (RepairAction.publishRepair repair : RepairAction Doc).Admissible scope)
    (repaired : store.prepareLatestRepair repair = .ok (row, next)) : Evolves scope store next := by
  obtain ⟨rolloutId, through, plain, differs, idempotencyKey⟩ := admitted
  refine evolves_repair (fun source _ key identity same => ?_) repaired
  rw [idempotencyKey, ← key] at same
  exact absurd same (repairKeyHash_ne plain scope.plain differs)

theorem repairHash_congr {first second : EventIdentity}
    (same : first.logicalKey = second.logicalKey) :
    scope.repairHash first = scope.repairHash second := by
  unfold RepairScope.repairHash repairKeyHash
  rw [idempotencyKeyHash_eq, idempotencyKeyHash_eq, same]

/-- **A repair of the window** leaves its identity repaired. -/
theorem evolves_repairDraft {route : RepairRoute} {event row : PreparedIndexingEvent Doc}
    (repaired : store.prepareLatestRepair (scope.repairDraft route event) = .ok (row, next)) :
    Evolves scope store next ∧ Repaired scope next event.event.identity := by
  have hash : ∀ source : PreparedIndexingEvent Doc,
      source.event.identity.logicalKey = event.event.identity.logicalKey →
        indexingIdempotencyKeyHash source.event.identity
            (scope.repairDraft route event).idempotencyKey =
          scope.repairHash event.event.identity := by
    intro source key
    rw [← repairHash_congr key]
    unfold RepairScope.repairHash repairKeyHash RepairScope.repairDraft
    rw [key]
  constructor
  · refine evolves_repair (fun source _ key identity same => ⟨rfl, ?_⟩) repaired
    rw [hash source key] at same
    exact key.trans (repairKeyHash_inj same).1
  · obtain ⟨source, stored, key, -, ⟨rfl, found, same⟩ | ⟨rfl, rfl, -⟩⟩ :=
      EventStore.prepareLatestRepair_ok repaired
    · exact ⟨row, found, same.trans (hash source key)⟩
    · exact ⟨_, List.mem_append_right _ (List.mem_singleton_self _), hash source key⟩

/-! ## The cursor -/

/-- An event of the identity behind the cursor, in the window. -/
def Behind (scope : RepairScope) (initial : EventStore Doc) (cursor : ℕ)
    (identity : EventIdentity) : Prop :=
  ∃ position event, initial.At position event ∧ cursor < position ∧ position ≤ scope.through ∧
    event.identity = identity

/-- The events of the window behind the cursor. -/
def eventsBehind (scope : RepairScope) (initial : EventStore Doc) (cursor : ℕ) : ℕ :=
  (initial.rows.filter fun row =>
    cursor < row.globalPosition ∧ row.globalPosition ≤ scope.through).length

theorem eventsBehind_lt {cursor nextCursor : ℕ} {event : IndexingEventV2 Doc}
    (stored : initial.At nextCursor event) (after : cursor < nextCursor)
    (within : nextCursor ≤ scope.through) :
    eventsBehind scope initial nextCursor < eventsBehind scope initial cursor := by
  obtain ⟨row, member, rfl, rfl⟩ := stored
  have smaller : (initial.rows.filter fun other =>
      row.globalPosition < other.globalPosition ∧ other.globalPosition ≤ scope.through) =
      (initial.rows.filter fun other => cursor < other.globalPosition ∧
        other.globalPosition ≤ scope.through).filter fun other =>
          row.globalPosition < other.globalPosition := by
    rw [List.filter_filter]
    refine List.filter_congr fun other _ => ?_
    rw [← Bool.decide_and, decide_eq_decide]
    constructor
    · exact fun ⟨later, within⟩ => ⟨later, after.trans later, within⟩
    · exact fun ⟨later, _, within⟩ => ⟨later, within⟩
  unfold eventsBehind
  rw [smaller, List.length_filter_lt_length_iff_exists]
  exact ⟨row, List.mem_filter.mpr ⟨member, decide_eq_true ⟨after, within⟩⟩, by simp⟩

/-- What a step under way has seen to, and what it has still to do. -/
def StageTracks (scope : RepairScope) (initial store : EventStore Doc) (cursor : ℕ) :
    StepStage Doc → Prop
  | .listing => True
  | .repairing pending nextCursor =>
    (∀ row ∈ pending, initial.At row.globalPosition row.event ∧
      row.globalPosition ≤ scope.through) ∧
    nextCursor ≤ scope.through ∧
    (nextCursor = scope.through ∨ cursor < nextCursor ∧ ∃ event, initial.At nextCursor event) ∧
    ∀ identity, identity.collection = scope.collection → Behind scope initial cursor identity →
      Repaired scope store identity ∨ (∃ row ∈ pending, row.event.identity = identity) ∨
        Behind scope initial nextCursor identity

/-- A step was started with the checkpoint of its version. -/
structure StepTracks (scope : RepairScope) (initial : EventStore Doc) (state : RepairWindow Doc)
    (repair : RepairStep Doc) : Prop where
  version_le : repair.version ≤ state.version
  current : repair.version = state.version →
    repair.cursor = state.cursor ∧ state.complete = false
  cursor_le : repair.cursor ≤ scope.through
  stage : StageTracks scope initial state.store repair.cursor repair.stage

namespace RepairWindow

/-- How many more checkpoints there can be. -/
def remaining (scope : RepairScope) (initial : EventStore Doc) (state : RepairWindow Doc) : ℕ :=
  if state.complete then 0 else eventsBehind scope initial state.cursor + 1

end RepairWindow

/-- **The invariant of the backfill.** -/
structure Tracks (scope : RepairScope) (initial : EventStore Doc) (barrier : ℕ)
    (state : RepairWindow Doc) : Prop where
  outbox : Extends scope initial state.store
  cursor_le : state.cursor ≤ scope.through
  complete : state.complete = true ↔ scope.through ≤ state.cursor
  covered : ∀ identity, identity.collection = scope.collection →
    Behind scope initial barrier identity →
      Repaired scope state.store identity ∨ Behind scope initial state.cursor identity
  budget : state.version + state.remaining scope initial ≤ eventsBehind scope initial barrier + 1
  steps : ∀ id repair, state.steps id = some repair → StepTracks scope initial state repair

/-! ## What each action preserves -/

variable {canonical : Doc → String} {barrier cursor : ℕ} {state : RepairWindow Doc}

theorem StageTracks.evolves {stage : StepStage Doc}
    (tracks : StageTracks scope initial store cursor stage) (evolves : Evolves scope store next) :
    StageTracks scope initial next cursor stage := by
  cases stage with
  | listing => trivial
  | repairing pending nextCursor =>
      obtain ⟨stored, within, progress, covered⟩ := tracks
      refine ⟨stored, within, progress, fun identity here behind => ?_⟩
      exact (covered identity here behind).imp_left evolves.repaired

/-- **Another writer** leaves the checkpoint and the steps alone. -/
theorem Tracks.evolves (tracks : Tracks scope initial barrier state)
    (evolves : Evolves scope state.store next) :
    Tracks scope initial barrier { state with store := next } where
  outbox := tracks.outbox.evolves evolves
  cursor_le := tracks.cursor_le
  complete := tracks.complete
  covered identity here behind := (tracks.covered identity here behind).imp_left evolves.repaired
  budget := tracks.budget
  steps id repair found := by
    have step := tracks.steps id repair found
    exact ⟨step.version_le, step.current, step.cursor_le, step.stage.evolves evolves⟩

theorem Tracks.write (tracks : Tracks scope initial barrier state)
    {result : Except EventStoreError (PreparedIndexingEvent Doc × EventStore Doc)}
    (evolves : ∀ row next, result = .ok (row, next) → Evolves scope state.store next) :
    Tracks scope initial barrier (state.write result) := by
  unfold RepairWindow.write
  split
  · exact tracks
  next row next => exact tracks.evolves (evolves row next rfl)

/-- Only the steps under way change. -/
theorem Tracks.of_steps (tracks : Tracks scope initial barrier state)
    {steps : ℕ → Option (RepairStep Doc)}
    (each : ∀ id repair, steps id = some repair → StepTracks scope initial state repair) :
    Tracks scope initial barrier { state with steps } where
  outbox := tracks.outbox
  cursor_le := tracks.cursor_le
  complete := tracks.complete
  covered := tracks.covered
  budget := tracks.budget
  steps id repair found := by
    have step := each id repair found
    exact ⟨step.version_le, step.current, step.cursor_le, step.stage⟩

theorem Tracks.drop (tracks : Tracks scope initial barrier state) (id : ℕ) :
    Tracks scope initial barrier (state.drop id) := by
  refine tracks.of_steps fun other repair found => ?_
  split_ifs at found
  exact tracks.steps other repair found

theorem Tracks.goOn (tracks : Tracks scope initial barrier state) {id : ℕ} {repair : RepairStep Doc}
    (found : state.steps id = some repair) {stage : StepStage Doc}
    (goes : StageTracks scope initial state.store repair.cursor stage) :
    Tracks scope initial barrier (state.goOn id repair stage) := by
  refine tracks.of_steps fun other after here => ?_
  split_ifs at here with same
  · obtain rfl := Option.some.inj here
    have step := tracks.steps id repair found
    exact ⟨step.version_le, step.current, step.cursor_le, goes⟩
  · exact tracks.steps other after here

theorem Tracks.start (tracks : Tracks scope initial barrier state) (id maxDocuments : ℕ)
    (route : RepairRoute) : Tracks scope initial barrier (state.start id maxDocuments route) := by
  unfold RepairWindow.start
  split_ifs with refused
  · exact tracks
  · rw [not_or] at refused
    refine tracks.of_steps fun other repair found => ?_
    split_ifs at found
    · obtain rfl := Option.some.inj found
      exact ⟨le_rfl, fun _ => ⟨rfl, by simpa using refused.1⟩, tracks.cursor_le, trivial⟩
    · exact tracks.steps other repair found

/-- **A checkpoint** is saved by a step that has repaired everything up to it. -/
theorem Tracks.commit (tracks : Tracks scope initial barrier state) {id : ℕ}
    {repair : RepairStep Doc} (found : state.steps id = some repair) {nextCursor : ℕ}
    (stage : repair.stage = .repairing [] nextCursor) :
    Tracks scope initial barrier (state.commit scope id repair nextCursor) := by
  unfold RepairWindow.commit
  split_ifs with same
  · have step := tracks.steps id repair found
    obtain ⟨at_cursor, open_⟩ := step.current same
    have goes := step.stage
    rw [stage, at_cursor] at goes
    obtain ⟨-, within, progress, covered⟩ := goes
    constructor
    case outbox => exact tracks.outbox
    case cursor_le => exact within
    case complete => simp
    case covered =>
      intro identity here behind
      rcases tracks.covered identity here behind with repaired | later
      · exact Or.inl repaired
      · rcases covered identity here later with repaired | ⟨row, member, -⟩ | later
        · exact Or.inl repaired
        · cases member
        · exact Or.inr later
    case budget =>
      have budget := tracks.budget
      unfold RepairWindow.remaining at budget ⊢
      rw [open_, if_neg Bool.false_ne_true] at budget
      simp only [decide_eq_true_eq]
      split_ifs with done
      · omega
      · rcases progress with here | ⟨after, event, stored⟩
        · omega
        · have fewer := eventsBehind_lt stored after within
          omega
    case steps =>
      intro other after here
      simp only [RepairWindow.drop] at here
      split_ifs at here
      have before := tracks.steps other after here
      have late := before.version_le
      refine ⟨Nat.le_succ_of_le late, ?_, before.cursor_le, before.stage⟩
      intro same
      simp only at same
      omega
  · exact tracks.drop id

section Plain

variable (plain : ∀ row ∈ initial.rows, PlainNames row.event.identity)

include plain

/-- **A page** holds the latest event of each identity up to its last position. -/
theorem stageTracks_listed (outbox : Extends scope initial store) {maxDocuments : ℕ}
    {events : List (PreparedIndexingEvent Doc)}
    (listed : store.listLatestByIdentity cursor scope.through maxDocuments = .ok events) :
    StageTracks scope initial store cursor (.repairing events
      (lastKey PreparedIndexingEvent.globalPosition scope.through events)) := by
  obtain ⟨le, positive, rfl⟩ := EventStore.listLatestByIdentity_ok listed
  set listing := store.latestWithin cursor scope.through with latest
  set events := page PreparedIndexingEvent.globalPosition cursor maxDocuments listing with paged
  have inWindow : ∀ row ∈ listing, initial.At row.globalPosition row.event ∧
      row.globalPosition ≤ scope.through := by
    intro row member
    obtain ⟨stored, newest⟩ := List.mem_filter.mp member
    have within := (of_decide_eq_true newest).1
    exact ⟨(outbox.within _ _ within).mp ⟨row, stored, rfl, rfl⟩, within⟩
  have sorted : listing.Pairwise fun first second => first.globalPosition < second.globalPosition :=
    outbox.sound.positions.filter _
  refine ⟨fun row member => inWindow row (mem_of_mem_page member).1, ?_, ?_, ?_⟩
  · by_cases empty : events = []
    · rw [empty, lastKey_nil]
    · obtain ⟨row, member, same⟩ := lastKey_of_ne_nil _ scope.through empty
      rw [same]
      exact (inWindow row (mem_of_mem_page member).1).2
  · by_cases empty : events = []
    · exact Or.inl (by rw [empty, lastKey_nil])
    · obtain ⟨row, member, same⟩ := lastKey_of_ne_nil _ scope.through empty
      obtain ⟨stored, after⟩ := mem_of_mem_page member
      rw [same]
      exact Or.inr ⟨after, row.event, (inWindow row stored).1⟩
  · rintro identity - ⟨position, event, stored, after, within, rfl⟩
    obtain ⟨row, member, key, later⟩ :=
      EventStore.exists_latestWithin ((outbox.within _ _ within).mpr stored) after within
    obtain ⟨rowStored, rowWithin⟩ := inWindow row member
    have same : row.event.identity = event.identity := by
      obtain ⟨first, firstMember, -, firstEvent⟩ := rowStored
      obtain ⟨second, secondMember, -, secondEvent⟩ := stored
      exact identity_eq_of_logicalKey (firstEvent ▸ plain first firstMember)
        (secondEvent ▸ plain second secondMember) key
    rcases le_or_gt row.globalPosition
        (lastKey PreparedIndexingEvent.globalPosition scope.through events) with seen | unseen
    · refine Or.inr (Or.inl ⟨row, ?_, same⟩)
      have nonempty : events ≠ [] := by
        intro empty
        have none := behind_eq_nil_of_page positive empty
        have here : row ∈ behind PreparedIndexingEvent.globalPosition cursor listing :=
          mem_behind.mpr ⟨member, after.trans_le later⟩
        rw [none] at here
        cases here
      rw [lastKey_congr _ scope.through cursor nonempty] at seen
      exact mem_page_of_le_lastKey sorted member (after.trans_le later) seen
    · exact Or.inr (Or.inr ⟨row.globalPosition, row.event, rowStored, unseen, rowWithin, same⟩)

/-- **One call of a step** keeps the invariant. -/
theorem Tracks.advance (tracks : Tracks scope initial barrier state) (id : ℕ) :
    Tracks scope initial barrier (state.advance scope id) := by
  unfold RepairWindow.advance
  split
  · exact tracks
  next repair found =>
    have step := tracks.steps id repair found
    split
    next stage =>
      split
      · exact tracks.drop id
      next events listed => exact tracks.goOn found (stageTracks_listed plain tracks.outbox listed)
    next event pending nextCursor stage =>
      have goes := step.stage
      rw [stage] at goes
      obtain ⟨stored, within, progress, covered⟩ := goes
      have rest : ∀ row ∈ pending, initial.At row.globalPosition row.event ∧
          row.globalPosition ≤ scope.through :=
        fun row member => stored row (List.mem_cons_of_mem _ member)
      split
      next foreign =>
        refine tracks.goOn found ⟨rest, within, progress, fun identity here behind => ?_⟩
        rcases covered identity here behind with repaired | ⟨row, member, same⟩ | later
        · exact Or.inl repaired
        · rcases List.mem_cons.mp member with rfl | member
          · exact absurd (same ▸ here) foreign
          · exact Or.inr (Or.inl ⟨row, member, same⟩)
        · exact Or.inr (Or.inr later)
      · split
        · exact tracks.drop id
        next row store repaired =>
          obtain ⟨evolves, done⟩ := evolves_repairDraft repaired
          refine (tracks.evolves evolves).goOn found ⟨rest, within, progress, ?_⟩
          intro identity here behind
          rcases covered identity here behind with repaired | ⟨row, member, same⟩ | later
          · exact Or.inl (evolves.repaired repaired)
          · rcases List.mem_cons.mp member with rfl | member
            · exact Or.inl (same ▸ done)
            · exact Or.inr (Or.inl ⟨row, member, same⟩)
          · exact Or.inr (Or.inr later)
    next nextCursor stage => exact tracks.commit found stage

/-- **Every action** keeps the invariant. -/
theorem Tracks.step (tracks : Tracks scope initial barrier state) {action : RepairAction Doc}
    (admitted : action.Admissible scope) :
    Tracks scope initial barrier (state.step canonical scope action) := by
  cases action with
  | publish draft => exact tracks.write fun row next => evolves_prepare admitted
  | publishRepair repair => exact tracks.write fun row next => evolves_publishRepair admitted
  | markPublished eventId => exact tracks.evolves (.marked eventId)
  | start id maxDocuments route => exact tracks.start id maxDocuments route
  | advance id => exact tracks.advance plain id
  | interrupt id => exact tracks.drop id

theorem tracks_run (canonical : Doc → String) (tracks : Tracks scope initial barrier state)
    {actions : List (RepairAction Doc)} (admissible : Along (RepairWindow.step canonical scope)
      (fun _ action => action.Admissible scope) state actions) :
    Tracks scope initial barrier (run (RepairWindow.step canonical scope) state actions) :=
  run_invariant (fun _ _ tracks admitted => tracks.step plain admitted) tracks admissible

end Plain

/-! ## Uninterrupted steps -/

/-- Calls of one step, among those of other writers. -/
def RepairAction.Quiet (id : ℕ) : RepairAction Doc → Prop
  | .publish _ => True
  | .publishRepair _ => True
  | .markPublished _ => True
  | .advance other => other = id
  | .start _ _ _ => False
  | .interrupt _ => False

/-- A call of the step. -/
def RepairAction.isAdvance (id : ℕ) : RepairAction Doc → Bool
  | .advance other => other = id
  | _ => false

/-- How many calls a step takes at most. -/
def RepairStep.work (repair : RepairStep Doc) : ℕ :=
  match repair.stage with
  | .listing => repair.maxDocuments + 2
  | .repairing pending _ => pending.length + 1

/-- The step is under way and no other has saved a checkpoint since. -/
def Live (state : RepairWindow Doc) (id work : ℕ) : Prop :=
  ∃ repair, state.steps id = some repair ∧ repair.version = state.version ∧
    1 ≤ repair.maxDocuments ∧ repair.work ≤ work

theorem goOn_live {id work : ℕ} {repair : RepairStep Doc} {stage : StepStage Doc}
    (current : repair.version = state.version) (positive : 1 ≤ repair.maxDocuments)
    (fewer : ({ repair with stage } : RepairStep Doc).work ≤ work) :
    Live (state.goOn id repair stage) id work :=
  ⟨{ repair with stage }, if_pos rfl, current, positive, fewer⟩

/-- **A call of a live step** makes progress: no source of a repair is missing. -/
theorem Tracks.advance_live (tracks : Tracks scope initial barrier state) {id work : ℕ}
    (live : Live state id (work + 1)) :
    (state.advance scope id).version = state.version ∧ Live (state.advance scope id) id work ∨
      (state.advance scope id).version = state.version + 1 ∧
        (state.advance scope id).steps id = none := by
  obtain ⟨repair, found, current, positive, fits⟩ := live
  have step := tracks.steps id repair found
  unfold RepairStep.work at fits
  unfold RepairWindow.advance
  rw [found]
  simp only
  split
  next stage =>
    rw [stage] at fits
    have listed : ∃ events, state.store.listLatestByIdentity repair.cursor scope.through
        repair.maxDocuments = .ok events ∧ events.length ≤ repair.maxDocuments := by
      have le := step.cursor_le
      unfold EventStore.listLatestByIdentity
      rw [if_neg (by omega), if_neg (by omega)]
      exact ⟨_, rfl, List.length_take_le _ _⟩
    obtain ⟨events, listed, few⟩ := listed
    rw [listed]
    refine Or.inl ⟨rfl, goOn_live current positive ?_⟩
    simp only [RepairStep.work]
    simp only at fits
    omega
  next event pending nextCursor stage =>
    rw [stage] at fits
    simp only [List.length_cons] at fits
    have goes := step.stage
    rw [stage] at goes
    split
    · refine Or.inl ⟨rfl, goOn_live current positive ?_⟩
      simp only [RepairStep.work]
      omega
    · obtain ⟨stored, within⟩ := goes.1 event List.mem_cons_self
      obtain ⟨row, member, -, same⟩ := (tracks.outbox.within _ _ within).mpr stored
      have key : row.event.identity.logicalKey =
          (scope.repairDraft repair.route event).identityKey := by
        rw [same]
        rfl
      obtain ⟨⟨result, store⟩, repaired⟩ := tracks.outbox.sound.exists_repair member key
      rw [repaired]
      refine Or.inl ⟨rfl, { repair with stage := .repairing pending nextCursor }, if_pos rfl,
        current, positive, ?_⟩
      simp only [RepairStep.work]
      omega
  next nextCursor stage =>
    unfold RepairWindow.commit
    rw [if_pos current]
    exact Or.inr ⟨rfl, if_pos rfl⟩

variable (scope canonical state) in
/-- Another writer touches the outbox only. -/
theorem quiet_step {id : ℕ} {action : RepairAction Doc} (quiet : action.Quiet id)
    (other : action.isAdvance id = false) :
    ∃ store, state.step canonical scope action = { state with store } := by
  have written : ∀ result, ∃ store, state.write result = { state with store } := by
    intro result
    unfold RepairWindow.write
    split
    · exact ⟨state.store, rfl⟩
    · exact ⟨_, rfl⟩
  cases action with
  | publish draft => exact written _
  | publishRepair repair => exact written _
  | markPublished eventId => exact ⟨_, rfl⟩
  | start => exact quiet.elim
  | interrupt => exact quiet.elim
  | advance caller =>
      rw [RepairAction.Quiet] at quiet
      subst quiet
      simp [RepairAction.isAdvance] at other

theorem eq_advance_of_isAdvance {id : ℕ} {action : RepairAction Doc}
    (here : action.isAdvance id = true) : action = .advance id := by
  cases action with
  | advance caller => exact congrArg RepairAction.advance (of_decide_eq_true here)
  | publish draft => cases here
  | publishRepair repair => cases here
  | markPublished eventId => cases here
  | start caller maxDocuments route => cases here
  | interrupt caller => cases here

/-- Without its step, calls do nothing. -/
theorem run_quiet_idle (canonical : Doc → String) (scope : RepairScope) {id : ℕ}
    {actions : List (RepairAction Doc)} (quiet : ∀ action ∈ actions, action.Quiet id)
    (idle : state.steps id = none) :
    let next := run (RepairWindow.step canonical scope) state actions
    next.steps id = none ∧ next.version = state.version ∧ next.complete = state.complete := by
  induction actions generalizing state with
  | nil => exact ⟨idle, rfl, rfl⟩
  | cons action actions ih =>
      have rest : ∀ action ∈ actions, action.Quiet id :=
        fun action member => quiet action (List.mem_cons_of_mem _ member)
      rw [run_cons]
      cases here : action.isAdvance id with
      | true =>
          rw [eq_advance_of_isAdvance here]
          have same : state.step canonical scope (.advance id) = state := by
            show state.advance scope id = state
            unfold RepairWindow.advance
            rw [idle]
          rw [same]
          exact ih rest idle
      | false =>
          obtain ⟨store, same⟩ :=
            quiet_step scope canonical state (quiet action List.mem_cons_self) here
          rw [same]
          refine ih rest ?_
          exact idle

section Plain

variable (plain : ∀ row ∈ initial.rows, PlainNames row.event.identity)

include plain

/-- **A live step that gets its calls** saves a checkpoint, whatever is published
meanwhile. -/
theorem Tracks.run_quiet (tracks : Tracks scope initial barrier state) {id work : ℕ}
    {actions : List (RepairAction Doc)} (quiet : ∀ action ∈ actions, action.Quiet id)
    (admissible : Along (RepairWindow.step canonical scope)
      (fun _ action => action.Admissible scope) state actions)
    (live : Live state id work) (enough : work ≤ actions.countP (RepairAction.isAdvance id)) :
    let next := run (RepairWindow.step canonical scope) state actions
    next.steps id = none ∧ next.version = state.version + 1 := by
  induction actions generalizing state work with
  | nil =>
      obtain ⟨repair, -, -, -, fits⟩ := live
      unfold RepairStep.work at fits
      rw [List.countP_nil] at enough
      split at fits
      · omega
      · omega
  | cons action actions ih =>
      have rest : ∀ action ∈ actions, action.Quiet id :=
        fun action member => quiet action (List.mem_cons_of_mem _ member)
      have kept : Tracks scope initial barrier (state.step canonical scope action) :=
        tracks.step plain admissible.1
      rw [run_cons]
      cases here : action.isAdvance id with
      | true =>
          rw [List.countP_cons_of_pos here] at enough
          obtain rfl := eq_advance_of_isAdvance here
          have live : Live state id (actions.countP (RepairAction.isAdvance id) + 1) := by
            obtain ⟨repair, found, current, positive, fits⟩ := live
            exact ⟨repair, found, current, positive, fits.trans enough⟩
          rcases tracks.advance_live live with ⟨same, live⟩ | ⟨saved, idle⟩
          · obtain ⟨idle, saved⟩ := ih kept rest admissible.2 live le_rfl
            exact ⟨idle, saved.trans (congrArg (· + 1) same)⟩
          · obtain ⟨idle, same, -⟩ := run_quiet_idle canonical scope rest idle
            exact ⟨idle, same.trans saved⟩
      | false =>
          rw [List.countP_cons_of_neg (by simp [here])] at enough
          obtain ⟨store, same⟩ :=
            quiet_step scope canonical state (quiet action List.mem_cons_self) here
          have later := admissible.2
          rw [same] at kept later ⊢
          exact ih kept rest later live enough

end Plain

/-- A step with its calls, among which others publish. -/
structure Attempt (Doc : Type) where
  maxDocuments : ℕ
  route : RepairRoute
  actions : List (RepairAction Doc)

namespace Attempt

def all (id : ℕ) (attempt : Attempt Doc) : List (RepairAction Doc) :=
  .start id attempt.maxDocuments attempt.route :: attempt.actions

/-- The step is not interrupted. -/
def Whole (id : ℕ) (attempt : Attempt Doc) : Prop :=
  1 ≤ attempt.maxDocuments ∧ (∀ action ∈ attempt.actions, action.Quiet id) ∧
    attempt.maxDocuments + 2 ≤ attempt.actions.countP (RepairAction.isAdvance id)

end Attempt

section Plain

variable (plain : ∀ row ∈ initial.rows, PlainNames row.event.identity)

include plain

/-- **A whole step** saves a checkpoint, unless the window is complete. -/
theorem Tracks.attempt (tracks : Tracks scope initial barrier state) {id : ℕ} {attempt : Attempt Doc}
    (idle : state.steps id = none) (whole : attempt.Whole id)
    (admissible : Along (RepairWindow.step canonical scope)
      (fun _ action => action.Admissible scope) state (attempt.all id)) :
    let next := run (RepairWindow.step canonical scope) state (attempt.all id)
    next.steps id = none ∧ (state.complete = true → next.complete = true) ∧
      (state.complete = false → next.version = state.version + 1) := by
  obtain ⟨positive, quiet, enough⟩ := whole
  have kept := tracks.start id attempt.maxDocuments attempt.route
  have later := admissible.2
  have first : run (RepairWindow.step canonical scope) state (attempt.all id) =
      run (RepairWindow.step canonical scope)
        (state.start id attempt.maxDocuments attempt.route) attempt.actions := rfl
  rw [first]
  cases done : state.complete with
  | true =>
      have same : state.start id attempt.maxDocuments attempt.route = state := by
        unfold RepairWindow.start
        rw [if_pos (Or.inl done)]
      rw [same]
      obtain ⟨idle, -, complete⟩ := run_quiet_idle canonical scope quiet idle
      exact ⟨idle, fun _ => complete.trans done, fun open_ => by cases open_⟩
  | false =>
      have started : state.start id attempt.maxDocuments attempt.route =
          { state with
            steps := fun other =>
              if other = id then
                some
                  { cursor := state.cursor
                    version := state.version
                    maxDocuments := attempt.maxDocuments
                    route := attempt.route }
              else state.steps other } := by
        unfold RepairWindow.start
        rw [if_neg (by simp [done, idle])]
      have live : Live (state.start id attempt.maxDocuments attempt.route) id
          (attempt.maxDocuments + 2) := by
        rw [started]
        exact ⟨_, if_pos rfl, rfl, positive, le_rfl⟩
      obtain ⟨idle, saved⟩ := kept.run_quiet plain quiet later live enough
      refine ⟨idle, fun complete => (Bool.false_ne_true complete).elim, fun _ => saved.trans ?_⟩
      rw [started]

/-- **Whole steps complete the window**, or each of them has saved a checkpoint. -/
theorem Tracks.attempts (tracks : Tracks scope initial barrier state) {id : ℕ}
    {attempts : List (Attempt Doc)} (idle : state.steps id = none)
    (whole : ∀ attempt ∈ attempts, attempt.Whole id)
    (admissible : Along (RepairWindow.step canonical scope)
      (fun _ action => action.Admissible scope) state (attempts.flatMap (Attempt.all id))) :
    let next := run (RepairWindow.step canonical scope) state (attempts.flatMap (Attempt.all id))
    (state.complete = true → next.complete = true) ∧
      (next.complete = true ∨ state.version + attempts.length ≤ next.version) := by
  induction attempts generalizing state with
  | nil => exact ⟨fun done => done, Or.inr le_rfl⟩
  | cons attempt attempts ih =>
      rw [List.flatMap_cons, along_append] at admissible
      obtain ⟨idle, stays, saves⟩ :=
        tracks.attempt plain idle (whole attempt List.mem_cons_self) admissible.1
      obtain ⟨later, progress⟩ := ih (tracks_run plain canonical tracks admissible.1) idle
        (fun other member => whole other (List.mem_cons_of_mem _ member)) admissible.2
      rw [List.flatMap_cons, run_append]
      refine ⟨fun done => later (stays done), ?_⟩
      cases done : state.complete with
      | true => exact Or.inl (later (stays done))
      | false =>
          refine progress.imp_right fun more => ?_
          have saved := saves done
          rw [List.length_cons]
          omega

end Plain

/-! ## The window from its opening -/

end ImposbroSearch.Migration
