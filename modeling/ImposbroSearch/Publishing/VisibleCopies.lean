import ImposbroSearch.Indexing.FifoDelivery
import ImposbroSearch.Migration.Backfill
import ImposbroSearch.Publishing.Ingest
import ImposbroSearch.Publishing.Repair
import ImposbroSearch.Routing.Runtime

/-!
# The copies of one document

An upsert is sent to the clusters its own content is routed to, a deletion to every
registered cluster, and the repair of a rollout to every cluster of the candidate
policy. Nothing is sent to the clusters that only an earlier version was routed to.
What a cluster ends with is therefore the last upsert that reached it, unless a
later deletion took it away; on the clusters a search reads, that can be an older
version than the latest.
-/

namespace ImposbroSearch.Publishing

open ImposbroSearch.Foundation ImposbroSearch.Indexing ImposbroSearch.Routing
open ImposbroSearch.Migration (policyClusters policyClusters_listed)

variable {Doc : Type}

/-- What the gateway accepts for one identity, with the runtime it was routed by. -/
inductive IdentityOperation (Doc : Type) where
  | upsert (runtime : RoutingRuntime Doc) (document : Doc) (idempotencyKey : String)
  | delete (runtime : RoutingRuntime Doc) (deleteFilter : Option String) (idempotencyKey : String)
  /-- a repair step of the backfill of `rollout`, for the window that ends at `through` -/
  | repair (runtime : RoutingRuntime Doc) (rollout : RolloutPlan Doc) (through : ℕ)

/-- The route of an upsert; without a target the request is refused. -/
def uploadRoute (runtime : RoutingRuntime Doc) (collection : String) (document : Doc) :
    Option Route :=
  if available : (runtime.getIndexingRoute collection document).1 = [] then none
  else some
    { targetClusters := (runtime.getIndexingRoute collection document).1
      routingRevision := (runtime.getIndexingRoute collection document).2.1
      rolloutId := (runtime.getIndexingRoute collection document).2.2
      targets_ne := available
      targets_nodup := runtime.getIndexingRoute_nodup collection document }

/-- The route of a deletion. -/
def deletionRoute (runtime : RoutingRuntime Doc) (collection : String) : Option Route :=
  if available : (runtime.getDeleteRoute collection).1 = [] then none
  else some
    { targetClusters := (runtime.getDeleteRoute collection).1
      routingRevision := (runtime.getDeleteRoute collection).2.1
      rolloutId := (runtime.getDeleteRoute collection).2.2
      targets_ne := available
      targets_nodup := runtime.getDeleteRoute_nodup collection }

/-- The `LatestRepairDraft` of a backfill step. -/
def repairDraft (runtime : RoutingRuntime Doc) (rollout : RolloutPlan Doc) (through : ℕ)
    (identity : EventIdentity) : Option LatestRepairDraft :=
  match resolved : policyClusters runtime.federation rollout.candidatePolicy with
  | .error _ => none
  | .ok clusters =>
    some
      { identityKey := identity.logicalKey
        idempotencyKey := repairIdempotencyKey rollout.rolloutId through identity.logicalKey
        targetClusters := clusters
        routingRevision := max 1 runtime.revision
        rolloutId := some rollout.rolloutId
        targets_ne := (policyClusters_listed resolved).1
        targets_nodup := (policyClusters_listed resolved).2 }

section Acceptance

variable (canonical : Doc → String) (identity : EventIdentity)

/-- The store after a request, which leaves it alone when it fails. -/
def storeAfterRequest (store : EventStore Doc)
    (result : Except EventStoreError (PreparedIndexingEvent Doc × EventStore Doc)) :
    EventStore Doc :=
  match result with
  | .ok (_, next) => next
  | .error _ => store

/-- One operation; one that is refused leaves the store alone. -/
def accept (store : EventStore Doc) : IdentityOperation Doc → EventStore Doc
  | .upsert runtime document idempotencyKey =>
    match uploadRoute runtime identity.collection document with
    | none => store
    | some route => storeAfterRequest store
        (store.prepare canonical (route.draft identity (.upsert document) idempotencyKey))
  | .delete runtime deleteFilter idempotencyKey =>
    match deletionRoute runtime identity.collection with
    | none => store
    | some route => storeAfterRequest store
        (store.prepare canonical (route.draft identity (.delete deleteFilter) idempotencyKey))
  | .repair runtime rollout through =>
    match repairDraft runtime rollout through identity with
    | none => store
    | some repair => storeAfterRequest store (store.prepareLatestRepair repair)

/-- The events accepted for the identity, in the order of their sequences. -/
def identityEvents (operations : List (IdentityOperation Doc)) : List (IndexingEventV2 Doc) :=
  (run (accept canonical identity) EventStore.empty operations).events

end Acceptance

section Accepted

variable {canonical : Doc → String} {identity : EventIdentity} {store : EventStore Doc}

/-- What the latest mutation means to leave behind. -/
def latestOutcome (events : List (IndexingEventV2 Doc)) : Option Doc :=
  events.getLast?.bind fun event => event.mutation.outcome

theorem storeAfterRequest_prepare (store : EventStore Doc) (draft : IndexingEventDraft Doc) :
    storeAfterRequest store (store.prepare canonical draft) = store ∨
      storeAfterRequest store (store.prepare canonical draft) = store.insertOutboxEvent draft := by
  cases result : store.prepare canonical draft with
  | error _ => exact .inl rfl
  | ok prepared =>
      obtain ⟨row, next⟩ := prepared
      rcases EventStore.prepare_cases result with ⟨-, same⟩ | ⟨-, inserted⟩
      · exact .inl same
      · exact .inr inserted

theorem storeAfterRequest_repair (store : EventStore Doc) (repair : LatestRepairDraft) :
    storeAfterRequest store (store.prepareLatestRepair repair) = store ∨
      ∃ source ∈ store.rows, source.event.identity.logicalKey = repair.identityKey ∧
        (∀ other ∈ store.rows, other.event.identity.logicalKey = repair.identityKey →
          other.event.sequence ≤ source.event.sequence) ∧
        storeAfterRequest store (store.prepareLatestRepair repair) =
          store.insertOutboxEvent (buildLatestRepairDraft repair source) := by
  cases result : store.prepareLatestRepair repair with
  | error _ => exact .inl rfl
  | ok prepared =>
      obtain ⟨row, next⟩ := prepared
      obtain ⟨source, member, key, greatest, ⟨same, -⟩ | ⟨-, inserted⟩⟩ :=
        EventStore.prepareLatestRepair_ok result
      · exact .inl same
      · exact .inr ⟨source, member, key, greatest, inserted.1⟩

variable (canonical) in
/-- An operation stores one more event of the identity, or none. -/
theorem accept_cases (store : EventStore Doc) (operation : IdentityOperation Doc)
    (own : ∀ row ∈ store.rows, row.event.identity = identity) :
    accept canonical identity store operation = store ∨
      ∃ draft : IndexingEventDraft Doc, draft.identity = identity ∧
        accept canonical identity store operation = store.insertOutboxEvent draft := by
  cases operation with
  | upsert runtime document idempotencyKey =>
      cases routed : uploadRoute runtime identity.collection document with
      | none => exact .inl (by simp only [accept, routed])
      | some route =>
          simp only [accept, routed]
          exact (storeAfterRequest_prepare store _).imp_right fun inserted => ⟨_, rfl, inserted⟩
  | delete runtime deleteFilter idempotencyKey =>
      cases routed : deletionRoute runtime identity.collection with
      | none => exact .inl (by simp only [accept, routed])
      | some route =>
          simp only [accept, routed]
          exact (storeAfterRequest_prepare store _).imp_right fun inserted => ⟨_, rfl, inserted⟩
  | repair runtime rollout through =>
      cases drafted : repairDraft runtime rollout through identity with
      | none => exact .inl (by simp only [accept, drafted])
      | some repair =>
          simp only [accept, drafted]
          rcases storeAfterRequest_repair store repair with same | ⟨source, member, -, -, inserted⟩
          · exact .inl same
          · exact .inr ⟨_, own source member, inserted⟩

/-- The store is sound and holds events of the identity only. -/
structure OwnEvents (identity : EventIdentity) (store : EventStore Doc) : Prop where
  sound : store.Sound
  own : ∀ row ∈ store.rows, row.event.identity = identity

theorem OwnEvents.accept (own : OwnEvents identity store) (operation : IdentityOperation Doc) :
    OwnEvents identity (accept canonical identity store operation) := by
  rcases accept_cases canonical store operation own.own with same | ⟨draft, here, inserted⟩
  · rwa [same]
  · rw [inserted]
    refine ⟨own.sound.insert, fun row member => ?_⟩
    rcases List.mem_append.mp member with old | new
    · exact own.own row old
    · rw [List.mem_singleton.mp new]
      exact here

theorem ownEvents_run (canonical : Doc → String) (identity : EventIdentity)
    (operations : List (IdentityOperation Doc)) :
    OwnEvents identity (run (Publishing.accept canonical identity) EventStore.empty operations) :=
  run_invariant_always (fun _ operation own => own.accept operation)
    ⟨EventStore.sound_empty, fun _ member => absurd member List.not_mem_nil⟩

theorem identity_eq (canonical : Doc → String) (identity : EventIdentity)
    (operations : List (IdentityOperation Doc)) :
    ∀ event ∈ identityEvents canonical identity operations, event.identity = identity := by
  intro event member
  obtain ⟨row, stored, rfl⟩ := List.mem_map.mp member
  exact (ownEvents_run canonical identity operations).own row stored

theorem latestOutcome_insert (store : EventStore Doc) (draft : IndexingEventDraft Doc) :
    latestOutcome (store.insertOutboxEvent draft).events = draft.mutation.outcome := by
  simp [latestOutcome, EventStore.events, EventStore.insertOutboxEvent, EventStore.nextRow]

/-- **A repair is no new version.** It copies the latest mutation. -/
theorem latestOutcome_repair (own : OwnEvents identity store) (runtime : RoutingRuntime Doc)
    (rollout : RolloutPlan Doc) (through : ℕ) :
    latestOutcome (accept canonical identity store (.repair runtime rollout through)).events =
      latestOutcome store.events := by
  cases drafted : repairDraft runtime rollout through identity with
  | none => simp only [accept, drafted]
  | some repair =>
      simp only [accept, drafted]
      have key : repair.identityKey = identity.logicalKey := by
        unfold repairDraft at drafted
        split at drafted
        · cases drafted
        · cases drafted
          rfl
      rcases storeAfterRequest_repair store repair with same | ⟨source, member, -, greatest, inserted⟩
      · rw [same]
      · -- the source is the last row, since sequences increase along the rows
        rw [inserted, latestOutcome_insert]
        rcases List.eq_nil_or_concat store.rows with empty | ⟨rows, last, split⟩
        · rw [empty] at member
          cases member
        · rw [List.concat_eq_append] at split
          have lastMember : last ∈ store.rows := by simp [split]
          have sameKey := (congrArg EventIdentity.logicalKey (own.own last lastMember)).trans key.symm
          have sourceLast : source = last := by
            rw [split, List.mem_append, List.mem_singleton] at member
            rcases member with earlier | same
            · have sequences := own.sound.sequences
              rw [split] at sequences
              have lower := (List.pairwise_append.mp sequences).2.2 source earlier last (by simp)
                (by rw [own.own source (by simp [split, earlier]), own.own last lastMember])
              exact absurd (greatest last lastMember sameKey) (not_le_of_gt lower)
            · exact same
          rw [latestOutcome, EventStore.events, split, List.map_append, List.map_singleton,
            List.getLast?_append_of_ne_nil _ (by simp), sourceLast]
          rfl

end Accepted

/-! ## What a cluster ends with -/

section Survivors

variable {satisfies : String → Doc → Bool} {digest : IndexingEventV2 Doc → String}
  {identity : EventIdentity} {log order events : List (IndexingEventV2 Doc)}
  {cluster : ClusterName} {event : IndexingEventV2 Doc} {document : Doc}

/-- The event put the document on the cluster, and nothing sent there later
replaces or removes it. -/
structure Survives (satisfies : String → Doc → Bool) (events : List (IndexingEventV2 Doc))
    (cluster : ClusterName) (event : IndexingEventV2 Doc) (document : Doc) : Prop where
  member : event ∈ events
  upserts : event.mutation = .upsert document
  targeted : cluster ∈ event.targetClusters
  spared : ∀ later ∈ events, event.sequence < later.sequence → cluster ∈ later.targetClusters →
    ¬later.mutation.Removes satisfies document

/-- One more delivery: what it targets it replaces or removes. -/
theorem survives_snoc (newest : ∀ earlier ∈ order, earlier.sequence < event.sequence)
    {writer : IndexingEventV2 Doc} :
    Survives satisfies (order ++ [event]) cluster writer document ↔
      (writer = event ∧ event.mutation = .upsert document ∧ cluster ∈ event.targetClusters) ∨
        (Survives satisfies order cluster writer document ∧
          (cluster ∈ event.targetClusters → ¬event.mutation.Removes satisfies document)) := by
  constructor
  · rintro ⟨member, upserts, targeted, spared⟩
    rcases List.mem_append.mp member with old | new
    · right
      refine ⟨⟨old, upserts, targeted, fun later inOrder => spared later ?_⟩, ?_⟩
      · exact List.mem_append_left _ inOrder
      · exact spared event (by simp) (newest writer old)
    · obtain rfl := List.mem_singleton.mp new
      exact .inl ⟨rfl, upserts, targeted⟩
  · rintro (⟨rfl, upserts, targeted⟩ | ⟨⟨member, upserts, targeted, spared⟩, kept⟩)
    · refine ⟨by simp, upserts, targeted, fun later inOrder above => ?_⟩
      rcases List.mem_append.mp inOrder with old | new
      · exact absurd (newest later old) (by omega)
      · rw [List.mem_singleton.mp new] at above
        exact absurd above (lt_irrefl _)
    · refine ⟨List.mem_append_left _ member, upserts, targeted, fun later inOrder above here => ?_⟩
      rcases List.mem_append.mp inOrder with old | new
      · exact spared later old above here
      · obtain rfl := List.mem_singleton.mp new
        exact kept here

/-- A delivery made before changes no survivor. -/
theorem survives_repeated (delivered : event ∈ order) {writer : IndexingEventV2 Doc} :
    Survives satisfies (order ++ [event]) cluster writer document ↔
      Survives satisfies order cluster writer document := by
  have same : ∀ other, other ∈ order ++ [event] ↔ other ∈ order := by
    intro other
    simp only [List.mem_append, List.mem_singleton, or_iff_left_iff_imp]
    rintro rfl
    exact delivered
  constructor
  · rintro ⟨member, upserts, targeted, spared⟩
    exact ⟨(same writer).mp member, upserts, targeted, fun later inOrder =>
      spared later ((same later).mpr inOrder)⟩
  · rintro ⟨member, upserts, targeted, spared⟩
    exact ⟨(same writer).mpr member, upserts, targeted, fun later inOrder =>
      spared later ((same later).mp inOrder)⟩

/-- What a mutation leaves of a document it does not put there itself. -/
theorem effect_eq_some {mutation : Mutation Doc} {stored : Option Doc} :
    mutation.effect satisfies stored = some document ↔
      mutation = .upsert document ∨
        (stored = some document ∧ ¬mutation.Removes satisfies document) := by
  constructor
  · intro left
    rcases Mutation.eq_of_effect left with upserts | before
    · exact .inl upserts
    · by_cases upserts : mutation = .upsert document
      · exact .inl upserts
      · refine .inr ⟨before, fun removes => ?_⟩
        rw [Mutation.effect_eq_outcome fun other found => by
          rwa [← Option.some.inj (before.symm.trans found)]] at left
        cases mutation with
        | upsert written => exact upserts (congrArg _ (Option.some.inj left))
        | delete _ => cases left
        | tombstone _ => cases left
  · rintro (rfl | ⟨rfl, spared⟩)
    · rfl
    · exact Mutation.effect_of_not_removes spared

variable (satisfies digest) in
/-- **What a cluster ends with** is the document of the one upsert that survives
there. -/
theorem documents_eq_some_iff (logged : EventLog {event | event ∈ log})
    (own : ∀ event ∈ log, event.identity = identity) (fifo : KafkaOrder log order) :
    (run (deliver satisfies digest) Storage.blank order).documents cluster identity.address =
        some document ↔
      ∃ event, Survives satisfies order cluster event document := by
  induction order using List.reverseRecOn with
  | nil =>
      simp only [run_nil, Storage.blank, reduceCtorEq, false_iff, not_exists]
      exact fun event survives => List.not_mem_nil survives.member
  | append_singleton order event ih =>
      have member : event ∈ log := fifo.sent event (by simp)
      rw [run_snoc_documents satisfies digest logged Storage.blank_fresh fifo, own event member]
      by_cases delivered : event ∈ order
      · rw [if_neg fun h => h.2 delivered, ih fifo.left]
        exact exists_congr fun writer => (survives_repeated delivered).symm
      · have newest : ∀ earlier ∈ order, earlier.sequence < event.sequence := by
          intro earlier inOrder
          have inLog := fifo.left.sent earlier inOrder
          have sameKey : earlier.identity.logicalKey = event.identity.logicalKey := by
            rw [own earlier inLog, own event member]
          refine lt_of_le_of_ne (fifo.left.rank_le_of_fresh member delivered inOrder sameKey) ?_
          intro same
          rw [logged.sequence_inj earlier inLog event member sameKey same] at inOrder
          exact delivered inOrder
        simp only [survives_snoc newest]
        by_cases targeted : cluster ∈ event.targetClusters
        · rw [if_pos ⟨⟨targeted, rfl⟩, delivered⟩, effect_eq_some, ih fifo.left]
          constructor
          · rintro (upserts | ⟨⟨writer, survives⟩, spared⟩)
            · exact ⟨event, .inl ⟨rfl, upserts, targeted⟩⟩
            · exact ⟨writer, .inr ⟨survives, fun _ => spared⟩⟩
          · rintro ⟨writer, ⟨-, upserts, -⟩ | ⟨survives, spared⟩⟩
            · exact .inl upserts
            · exact .inr ⟨⟨writer, survives⟩, spared targeted⟩
        · rw [if_neg fun h => targeted h.1.1, ih fifo.left]
          constructor
          · rintro ⟨writer, survives⟩
            exact ⟨writer, .inr ⟨survives, fun here => absurd here targeted⟩⟩
          · rintro ⟨writer, ⟨-, -, here⟩ | ⟨survives, -⟩⟩
            · exact absurd here targeted
            · exact ⟨writer, survives⟩

end Survivors

/-! ## Stale copies -/

section StaleCopies

variable (canonical : Doc → String) (satisfies : String → Doc → Bool)
  (digest : IndexingEventV2 Doc → String) (identity : EventIdentity)
  (operations : List (IdentityOperation Doc)) (reader : RoutingRuntime Doc)

/-- Once all events are delivered, every cluster that a search reads and that holds
the document holds its latest version, and none holds a deleted one. -/
def NoStaleCopy : Prop :=
  ∀ order, KafkaOrder (identityEvents canonical identity operations) order →
    (∀ event ∈ identityEvents canonical identity operations, event ∈ order) →
      ∀ cluster ∈ reader.clusterNamesForSearch identity.collection, ∀ document,
        (run (deliver satisfies digest) Storage.blank order).documents cluster identity.address =
            some document →
          latestOutcome (identityEvents canonical identity operations) = some document

/-- A later mutation that is sent to the cluster as well replaces or removes the
document. -/
def Superseded (events : List (IndexingEventV2 Doc)) (cluster : ClusterName)
    (event : IndexingEventV2 Doc) (document : Doc) : Prop :=
  ∃ later ∈ events, event.sequence < later.sequence ∧ cluster ∈ later.targetClusters ∧
    later.mutation.Removes satisfies document

variable {canonical satisfies digest identity operations reader}

/-- Delivered in the order of acceptance, a version that nothing supersedes stays. -/
theorem NoStaleCopy.superseded
    (fresh : NoStaleCopy canonical satisfies digest identity operations reader)
    {event : IndexingEventV2 Doc} (member : event ∈ identityEvents canonical identity operations)
    {document : Doc} (upserts : event.mutation = .upsert document)
    (outdated : latestOutcome (identityEvents canonical identity operations) ≠ some document)
    {cluster : ClusterName} (targeted : cluster ∈ event.targetClusters)
    (read : cluster ∈ reader.clusterNamesForSearch identity.collection) :
    Superseded satisfies (identityEvents canonical identity operations) cluster event document := by
  have sound := (ownEvents_run canonical identity operations).sound
  have own := identity_eq canonical identity operations
  by_contra never
  have survives : Survives satisfies (identityEvents canonical identity operations) cluster event
      document :=
    ⟨member, upserts, targeted, fun later inLog above here removes =>
      never ⟨later, inLog, above, here, removes⟩⟩
  have whole : KafkaOrder (identityEvents canonical identity operations)
      (identityEvents canonical identity operations) := by
    have all := Fifo.filter (p := fun _ => true) sound.sorted fun _ _ _ _ _ _ _ => rfl
    rwa [List.filter_true] at all
  refine outdated (fresh _ whole (fun _ inLog => inLog) cluster read document ?_)
  exact (documents_eq_some_iff satisfies digest sound.eventLog own whole).mpr ⟨event, survives⟩

/-- A copy that is left is that of a version nothing supersedes. -/
theorem noStaleCopy_of_superseded
    (superseded : ∀ event ∈ identityEvents canonical identity operations, ∀ document,
      event.mutation = .upsert document →
      latestOutcome (identityEvents canonical identity operations) ≠ some document →
        ∀ cluster ∈ event.targetClusters, cluster ∈ reader.clusterNamesForSearch identity.collection →
          Superseded satisfies (identityEvents canonical identity operations) cluster event
            document) :
    NoStaleCopy canonical satisfies digest identity operations reader := by
  have sound := (ownEvents_run canonical identity operations).sound
  have own := identity_eq canonical identity operations
  intro order fifo complete cluster read document held
  obtain ⟨event, survives⟩ :=
    (documents_eq_some_iff satisfies digest sound.eventLog own fifo).mp held
  by_contra outdated
  obtain ⟨later, inLog, above, here, removes⟩ := superseded event
    (fifo.sent event survives.member) document survives.upserts outdated cluster
    survives.targeted read
  exact survives.spared later (complete later inLog) above here removes

variable (canonical satisfies digest identity operations reader) in
/-- **When no copy is stale.** Every version but the latest is superseded on each
cluster that it was routed to and that a search reads. -/
theorem no_stale_copy_iff :
    NoStaleCopy canonical satisfies digest identity operations reader ↔
      ∀ event ∈ identityEvents canonical identity operations, ∀ document,
        event.mutation = .upsert document →
        latestOutcome (identityEvents canonical identity operations) ≠ some document →
          ∀ cluster ∈ event.targetClusters, cluster ∈ reader.clusterNamesForSearch identity.collection →
            Superseded satisfies (identityEvents canonical identity operations) cluster event
              document := by
  constructor
  · intro fresh event member document upserts outdated cluster targeted read
    exact fresh.superseded member upserts outdated targeted read
  · exact noStaleCopy_of_superseded

/-- A latest mutation that removes what it finds and reaches every cluster ever
written leaves no stale copy: the routing of the document has not changed. -/
theorem no_stale_copy_of_covered (covered : ∀ last,
      (identityEvents canonical identity operations).getLast? = some last →
        (∀ document, last.mutation.Removes satisfies document) ∧
        ∀ event ∈ identityEvents canonical identity operations,
          event.targetClusters ⊆ last.targetClusters) :
    NoStaleCopy canonical satisfies digest identity operations reader := by
  refine noStaleCopy_of_superseded fun event member document upserts outdated cluster targeted _ => ?_
  rcases List.eq_nil_or_concat (identityEvents canonical identity operations) with
    empty | ⟨earlier, last, split⟩
  · rw [empty] at member
    cases member
  · rw [List.concat_eq_append] at split
    have isLast : (identityEvents canonical identity operations).getLast? = some last := by
      simp [split]
    obtain ⟨removes, reaches⟩ := covered last isLast
    refine ⟨last, by simp [split], ?_, reaches event member targeted, removes document⟩
    have sorted : (identityEvents canonical identity operations).Pairwise fun first second =>
        first.identity.logicalKey = second.identity.logicalKey → first.sequence < second.sequence :=
      (ownEvents_run canonical identity operations).sound.sorted
    have own := identity_eq canonical identity operations
    rw [split] at member own sorted
    rcases List.mem_append.mp member with before | same
    · refine (List.pairwise_append.mp sorted).2.2 event before last (by simp) ?_
      rw [own event member, own last (by simp)]
    · rw [List.mem_singleton.mp same] at upserts
      refine absurd ?_ outdated
      rw [latestOutcome, isLast, Option.bind_some, upserts]
      rfl

end StaleCopies

/-! ## A document that moves -/

section Moving

/-- Documents of `eu` go to `east`, all others to `west`. -/
private def byRegion : RoutingRuntime (String × String) where
  revision := 3
  federation := { clients := ["east", "west"] }
  routingRules :=
    [("products",
      { policy :=
          { rules := [{ target := .cluster "east", priority := none, isMatch := (·.1 = "eu") }]
            defaultCluster := "west" } })]
  routingRollouts := []
  rollouts_nodup := List.nodup_nil
  now := 5

/-- The region of the document changes, so its second version goes elsewhere. -/
private def relocated : List (IdentityOperation (String × String)) :=
  [.upsert byRegion ("eu", "v1") "create", .upsert byRegion ("us", "v2") "move"]

private def productIdentity : EventIdentity := ⟨"acme", "products", "p1"⟩

/-- The first version stays on the cluster it was routed to. -/
theorem moved_document_leaves_copy :
    ¬NoStaleCopy (fun version => version.1 ++ version.2) (fun _ _ => false)
      (fun event => event.eventId) productIdentity relocated byRegion := by
  intro fresh
  obtain ⟨older, newer, stored, version, targets, moved, outcome⟩ : ∃ older newer,
      identityEvents (fun version => version.1 ++ version.2) productIdentity relocated =
          [older, newer] ∧
        older.mutation = .upsert ("eu", "v1") ∧ older.targetClusters = ["east"] ∧
        newer.targetClusters = ["west"] ∧ newer.mutation = .upsert ("us", "v2") :=
    ⟨_, _, rfl, rfl, rfl, rfl, rfl⟩
  have member : older ∈ identityEvents (fun version => version.1 ++ version.2) productIdentity
      relocated := by simp [stored]
  have routed : "east" ∈ older.targetClusters := by simp [targets]
  obtain ⟨later, inLog, above, here, -⟩ := fresh.superseded member version
    (by simp [stored, latestOutcome, outcome, Mutation.outcome, Mutation.document]) routed
    (by decide)
  rw [stored, List.mem_cons, List.mem_singleton] at inLog
  rcases inLog with rfl | rfl
  · exact lt_irrefl _ above
  · simp [moved] at here

end Moving

end ImposbroSearch.Publishing
