import Mathlib
import ImposbroSearch.Foundation.Paging
import ImposbroSearch.Publishing.EventStore

/-!
# Positions, publication marks, and repairs

A routing migration reads the outbox by global position: the high-water mark, the
rows not yet published, and the latest row of every identity in a window. A repair
clones the newest mutation of an identity under a higher sequence and other
targets; its idempotency key names the rollout, the end of the window, and the
identity, so a window repairs an identity once.
-/

namespace ImposbroSearch.Publishing

open ImposbroSearch.Foundation ImposbroSearch.Indexing

variable {Doc : Type}

/-- `LatestRepairDraft`, without its trace. The logical key stands for its hash. -/
structure LatestRepairDraft where
  identityKey : String
  idempotencyKey : String
  targetClusters : List ClusterName
  routingRevision : ℕ
  rolloutId : Option String
  targets_ne : targetClusters ≠ [] := by decide
  targets_nodup : targetClusters.Nodup := by decide

/-- `build_latest_repair_draft`: the source's mutation, the repair's route. -/
def buildLatestRepairDraft (repair : LatestRepairDraft) (source : PreparedIndexingEvent Doc) :
    IndexingEventDraft Doc where
  identity := source.event.identity
  mutation := source.event.mutation
  targetClusters := repair.targetClusters
  routingRevision := repair.routingRevision
  rolloutId := repair.rolloutId
  idempotencyKey := repair.idempotencyKey
  targets_ne := repair.targets_ne
  targets_nodup := repair.targets_nodup

/-- The idempotency key of the repair of an identity in the window that ends at `through`. -/
def repairIdempotencyKey (rolloutId : String) (through : ℕ) (identityKey : String) : String :=
  "rollout-repair:" ++ rolloutId ++ ":" ++ Nat.repr through ++ ":" ++ identityKey

/-- The hash under which that repair is stored. -/
def repairKeyHash (rolloutId : String) (identity : EventIdentity) (through : ℕ) : String :=
  indexingIdempotencyKeyHash identity (repairIdempotencyKey rolloutId through identity.logicalKey)

/-! ## Repair keys -/

/-- A text framed by two copies of itself, around a separator and a body without
that separator, determines itself and the body. -/
theorem framed_inj {α : Type} [DecidableEq α] {separator mark : α}
    {lead first second body other : List α}
    (marked : mark ≠ separator) (clean : separator ∉ body)
    (shorter : first.length ≤ second.length)
    (same : first ++ separator :: (lead ++ (body ++ mark :: first)) =
      second ++ separator :: (lead ++ (other ++ mark :: second))) :
    first = second ∧ body = other := by
  rcases List.append_eq_append_iff.mp same with ⟨gap, rfl, rest⟩ | ⟨gap, rfl, -⟩
  · cases gap with
    | nil =>
        rw [List.append_nil] at rest ⊢
        rw [List.nil_append, List.cons.injEq, List.append_cancel_left_eq] at rest
        exact ⟨rfl, List.append_cancel_right rest.2⟩
    | cons head gap =>
        -- counting separators at the end of both sides leaves no room for a gap
        exfalso
        have lengths := congrArg List.length rest
        simp only [List.length_cons, List.length_append] at lengths
        obtain ⟨rfl, -⟩ := List.cons.inj rest
        obtain ⟨front, back, rfl, size⟩ : ∃ front back, body = front ++ back ∧
            back.length = gap.length :=
          ⟨_, _, (List.take_append_drop (body.length - gap.length) body).symm, by
            rw [List.length_drop]
            omega⟩
        have split : (separator :: (lead ++ front)) ++ (back ++ mark :: first) =
            (separator :: gap ++ separator :: (lead ++ (other ++ [mark]))) ++
              (first ++ separator :: gap) := by
          simpa using rest
        have tails : back ++ mark :: first = first ++ separator :: gap := by
          refine (List.append_inj' split ?_).2
          simp only [List.length_append, List.length_cons, size]
          omega
        have counts := congrArg (List.count separator) tails
        have none : List.count separator back = 0 :=
          List.count_eq_zero_of_not_mem fun member => clean (List.mem_append_right _ member)
        simp only [List.count_append, none, List.count_cons_of_ne marked,
          List.count_cons_self] at counts
        omega
  · rw [List.length_append] at shorter
    obtain rfl := List.eq_nil_of_length_eq_zero (by omega : gap.length = 0)
    rw [List.append_nil, List.append_cancel_left_eq, List.cons.injEq,
      List.append_cancel_left_eq] at same
    exact ⟨List.append_nil _, List.append_cancel_right same.2⟩

/-- Bodies without the separator are cut off at the last one. -/
theorem cut_inj {α : Type} {separator : α} {first second body other : List α}
    (clean : separator ∉ body) (otherClean : separator ∉ other)
    (same : first ++ separator :: body = second ++ separator :: other) :
    first = second ∧ body = other := by
  rcases List.append_eq_append_iff.mp same with ⟨gap, lead, rest⟩ | ⟨gap, lead, rest⟩
  · cases gap with
    | nil =>
        rw [List.append_nil] at lead
        rw [List.nil_append, List.cons.injEq] at rest
        exact ⟨lead.symm, rest.2⟩
    | cons head gap =>
        simp only [List.cons_append, List.cons.injEq] at rest
        exact absurd clean (not_not.mpr (by rw [rest.2]; simp))
  · cases gap with
    | nil =>
        rw [List.append_nil] at lead
        rw [List.nil_append, List.cons.injEq] at rest
        exact ⟨lead, rest.2.symm⟩
    | cons head gap =>
        simp only [List.cons_append, List.cons.injEq] at rest
        exact absurd otherClean (not_not.mpr (by rw [rest.2]; simp))

theorem framed_toList {separator mark : Char} {key between stop lead body : String}
    (cut : between.toList = [separator]) (marked : stop.toList = [mark]) :
    (key ++ between ++ (lead ++ body ++ stop ++ key)).toList =
      key.toList ++ separator :: (lead.toList ++ (body.toList ++ mark :: key.toList)) := by
  simp only [String.toList_append, cut, marked, List.append_assoc, List.cons_append,
    List.nil_append]

theorem idempotencyKeyHash_eq (identity : EventIdentity) (key : String) :
    indexingIdempotencyKeyHash identity key = identity.logicalKey ++ identitySeparator ++ key := by
  simp only [indexingIdempotencyKeyHash, EventIdentity.logicalKey, String.intercalate_cons_cons,
    String.intercalate_singleton, String.append_assoc]

theorem repairKeyHash_toList (rolloutId : String) (identity : EventIdentity) (through : ℕ) :
    (repairKeyHash rolloutId identity through).toList =
      identity.logicalKey.toList ++ '\x1f' ::
        (("rollout-repair:" ++ rolloutId ++ ":").toList ++
          ((Nat.repr through).toList ++ ':' :: identity.logicalKey.toList)) := by
  unfold repairKeyHash
  rw [idempotencyKeyHash_eq]
  exact framed_toList rfl rfl

theorem separator_not_mem_repr (number : ℕ) : '\x1f' ∉ (Nat.repr number).toList := by
  intro member
  rw [Nat.toList_repr] at member
  have digit := Nat.isDigit_of_mem_toDigits (by decide) (by decide) member
  exact absurd digit (by decide)

/-- **A repair key names one identity and one window.** -/
theorem repairKeyHash_inj {rolloutId : String} {first second : EventIdentity}
    {through other : ℕ}
    (same : repairKeyHash rolloutId first through = repairKeyHash rolloutId second other) :
    first.logicalKey = second.logicalKey ∧ through = other := by
  have text := congrArg String.toList same
  rw [repairKeyHash_toList, repairKeyHash_toList] at text
  have marked : ':' ≠ '\x1f' := by decide
  rcases Nat.le_total first.logicalKey.toList.length second.logicalKey.toList.length with
    shorter | longer
  · obtain ⟨key, digits⟩ := framed_inj marked (separator_not_mem_repr through) shorter text
    exact ⟨String.toList_inj.mp key, Nat.repr_injective (String.toList_inj.mp digits)⟩
  · obtain ⟨key, digits⟩ := framed_inj marked (separator_not_mem_repr other) longer text.symm
    exact ⟨String.toList_inj.mp key.symm, Nat.repr_injective (String.toList_inj.mp digits.symm)⟩

namespace EventStore

/-- The row with the highest sequence. -/
def newest : List (PreparedIndexingEvent Doc) → Option (PreparedIndexingEvent Doc)
  | [] => none
  | row :: rows =>
    match newest rows with
    | none => some row
    | some later => if later.event.sequence < row.event.sequence then some row else some later

variable (store : EventStore Doc)

/-- `pending_count` -/
def pendingCount : ℕ := (store.rows.filter fun row => !row.published).length

/-- `mark_published` -/
def markPublished (eventId : String) : EventStore Doc :=
  { store with
    rows := store.rows.map fun row =>
      if row.event.eventId = eventId then { row with published := true } else row }

/-- The rows up to `through` that are the latest of their identity in the window. -/
def latestWithin (afterPosition throughPosition : ℕ) : List (PreparedIndexingEvent Doc) :=
  store.rows.filter fun row =>
    row.globalPosition ≤ throughPosition ∧
      ∀ other ∈ store.rows, other.event.identity.logicalKey = row.event.identity.logicalKey →
        afterPosition < other.globalPosition → other.globalPosition ≤ throughPosition →
          other.globalPosition ≤ row.globalPosition

/-- `list_latest_by_identity` -/
def listLatestByIdentity (afterPosition throughPosition limit : ℕ) :
    Except String (List (PreparedIndexingEvent Doc)) :=
  if throughPosition < afterPosition then
    .error "Position window must satisfy 0 <= after <= through"
  else if limit < 1 then .error "limit must be positive"
  else .ok (page PreparedIndexingEvent.globalPosition afterPosition limit
    (store.latestWithin afterPosition throughPosition))

/-- `prepare_latest_repair` -/
def prepareLatestRepair (repair : LatestRepairDraft) :
    Except EventStoreError (PreparedIndexingEvent Doc × EventStore Doc) :=
  if store.lastSequence repair.identityKey = 0 then
    .error (.repairSourceNotFound "No durable indexing event exists for the repair identity")
  else
    match newest (store.rows.filter fun row =>
        row.event.identity.logicalKey = repair.identityKey) with
    | none => .error (.repairSourceNotFound "Indexing head has no corresponding durable event")
    | some source =>
      let draft := buildLatestRepairDraft repair source
      match store.existingForKey
          (indexingIdempotencyKeyHash draft.identity draft.idempotencyKey) with
      | some row => .ok (row, store)
      | none => .ok (store.nextRow draft, store.insertOutboxEvent draft)

/-- `event` is stored at `position`. -/
def At (position : ℕ) (event : IndexingEventV2 Doc) : Prop :=
  ∃ row ∈ store.rows, row.globalPosition = position ∧ row.event = event

variable {store} {draft : IndexingEventDraft Doc} {event other : IndexingEventV2 Doc}
  {position otherPosition : ℕ}

/-! ## Positions -/

theorem mem_events_iff : event ∈ store.events ↔ ∃ position, store.At position event := by
  constructor
  · intro member
    obtain ⟨row, stored, rfl⟩ := List.mem_map.mp member
    exact ⟨row.globalPosition, row, stored, rfl, rfl⟩
  · rintro ⟨position, row, stored, -, rfl⟩
    exact List.mem_map_of_mem stored

theorem At.mem (stored : store.At position event) : event ∈ store.events :=
  mem_events_iff.mpr ⟨position, stored⟩

theorem At.le_highWaterMark (stored : store.At position event) :
    position ≤ store.highWaterMark := by
  obtain ⟨row, member, rfl, rfl⟩ := stored
  exact EventStore.le_highWaterMark member

/-- Per logical key, positions and sequences increase together. -/
theorem Sound.position_lt_iff (sound : store.Sound) (stored : store.At position event)
    (otherStored : store.At otherPosition other)
    (sameKey : event.identity.logicalKey = other.identity.logicalKey) :
    position < otherPosition ↔ event.sequence < other.sequence := by
  obtain ⟨row, member, rfl, rfl⟩ := stored
  obtain ⟨otherRow, otherMember, rfl, rfl⟩ := otherStored
  have order : ∀ first ∈ store.rows, ∀ second ∈ store.rows,
      first.globalPosition < second.globalPosition →
        first.event.identity.logicalKey = second.event.identity.logicalKey →
          first.event.sequence < second.event.sequence := by
    intro first firstMember second secondMember
    have both := sound.positions.and sound.sequences
    obtain ⟨i, iBound, rfl⟩ := List.getElem_of_mem firstMember
    obtain ⟨j, jBound, rfl⟩ := List.getElem_of_mem secondMember
    intro before key
    rcases lt_trichotomy i j with lower | same | upper
    · exact (List.pairwise_iff_getElem.mp both i j iBound jBound lower).2 key
    · subst same
      exact absurd before (lt_irrefl _)
    · exact absurd before
        (not_lt_of_gt (List.pairwise_iff_getElem.mp both j i jBound iBound upper).1)
  constructor
  · intro before
    exact order row member otherRow otherMember before sameKey
  · intro before
    by_contra after
    rcases Nat.lt_or_eq_of_le (not_lt.mp after) with lower | same
    · exact absurd before (not_lt_of_gt (order otherRow otherMember row member lower sameKey.symm))
    · rw [sound.position_inj otherMember member same] at before
      exact absurd before (lt_irrefl _)

theorem Sound.position_le_iff (sound : store.Sound) (stored : store.At position event)
    (otherStored : store.At otherPosition other)
    (sameKey : event.identity.logicalKey = other.identity.logicalKey) :
    position ≤ otherPosition ↔ event.sequence ≤ other.sequence := by
  rw [← not_lt, sound.position_lt_iff otherStored stored sameKey.symm, not_lt]

/-- An event has one position. -/
theorem Sound.position_unique (sound : store.Sound) (stored : store.At position event)
    (again : store.At otherPosition event) : position = otherPosition :=
  le_antisymm ((sound.position_le_iff stored again rfl).mpr le_rfl)
    ((sound.position_le_iff again stored rfl).mpr le_rfl)

/-! ## Insertion and publication -/

theorem at_insert :
    (store.insertOutboxEvent draft).At position event ↔
      store.At position event ∨
        (position = store.highWaterMark + 1 ∧ event = (store.nextRow draft).event) := by
  constructor
  · rintro ⟨row, member, rfl, rfl⟩
    rcases List.mem_append.mp member with member | here
    · exact Or.inl ⟨row, member, rfl, rfl⟩
    · obtain rfl := List.mem_singleton.mp here
      exact Or.inr ⟨rfl, rfl⟩
  · rintro (⟨row, member, rfl, rfl⟩ | ⟨rfl, rfl⟩)
    · exact ⟨row, List.mem_append_left _ member, rfl, rfl⟩
    · exact ⟨_, List.mem_append_right _ (List.mem_singleton.mpr rfl), rfl, rfl⟩

theorem mem_events_insert :
    event ∈ (store.insertOutboxEvent draft).events ↔
      event ∈ store.events ∨ event = (store.nextRow draft).event := by
  simp [events, insertOutboxEvent, or_comm]

/-- The next event of an identity exceeds all its earlier ones. -/
theorem Sound.lt_nextRow (sound : store.Sound) (member : event ∈ store.events)
    (sameKey : event.identity.logicalKey = draft.identity.logicalKey) :
    event.sequence < (store.nextRow draft).event.sequence := by
  obtain ⟨row, stored, rfl⟩ := List.mem_map.mp member
  have le := sound.heads row stored
  rw [sameKey] at le
  exact Nat.lt_succ_of_le le

section Publication

variable (store) (eventId : String)

theorem mem_markPublished {row : PreparedIndexingEvent Doc}
    (member : row ∈ (store.markPublished eventId).rows) :
    ∃ before ∈ store.rows, row.event = before.event ∧
      row.globalPosition = before.globalPosition ∧
      row.idempotencyKeyHash = before.idempotencyKeyHash ∧
      (row.published = true → before.published = true ∨ before.event.eventId = eventId) := by
  obtain ⟨before, stored, rfl⟩ := List.mem_map.mp member
  refine ⟨before, stored, ?_⟩
  split_ifs with named
  · exact ⟨rfl, rfl, rfl, fun _ => Or.inr named⟩
  · exact ⟨rfl, rfl, rfl, Or.inl⟩

theorem events_markPublished : (store.markPublished eventId).events = store.events := by
  simp only [events, markPublished, List.map_map]
  refine List.map_congr_left fun row _ => ?_
  simp only [Function.comp_apply]
  split_ifs
  · rfl
  · rfl

theorem at_markPublished : (store.markPublished eventId).At position event ↔
    store.At position event := by
  constructor
  · rintro ⟨row, member, rfl, rfl⟩
    obtain ⟨before, stored, same, place, -⟩ := mem_markPublished store eventId member
    exact ⟨before, stored, place.symm, same.symm⟩
  · rintro ⟨row, member, rfl, rfl⟩
    refine ⟨_, List.mem_map_of_mem member, ?_⟩
    split_ifs
    · exact ⟨rfl, rfl⟩
    · exact ⟨rfl, rfl⟩

theorem highWaterMark_markPublished :
    (store.markPublished eventId).highWaterMark = store.highWaterMark := by
  simp only [highWaterMark, markPublished, List.foldr_map]
  congr 1
  funext row mark
  split_ifs
  · rfl
  · rfl

theorem Sound.markPublished {store : EventStore Doc} (sound : store.Sound) (eventId : String) :
    (store.markPublished eventId).Sound where
  positions := by
    refine List.pairwise_map.mpr (sound.positions.imp fun lower => ?_)
    split_ifs <;> exact lower
  sequences := by
    refine List.pairwise_map.mpr (sound.sequences.imp fun lower => ?_)
    split_ifs <;> exact lower
  heads row member := by
    obtain ⟨before, stored, same, -⟩ := mem_markPublished store eventId member
    rw [same]
    exact sound.heads before stored
  version_eq row member := by
    obtain ⟨before, stored, same, -⟩ := mem_markPublished store eventId member
    rw [same]
    exact sound.version_eq before stored
  eventId_eq row member := by
    obtain ⟨before, stored, same, place, -⟩ := mem_markPublished store eventId member
    rw [same, place]
    exact sound.eventId_eq before stored

end Publication

/-! ## Repairs -/

theorem newest_eq_none {rows : List (PreparedIndexingEvent Doc)} :
    newest rows = none ↔ rows = [] := by
  cases rows with
  | nil => exact iff_of_true rfl rfl
  | cons row rows =>
      refine iff_of_false (fun none => ?_) (by simp)
      unfold newest at none
      split at none
      · cases none
      · split_ifs at none

theorem newest_some {rows : List (PreparedIndexingEvent Doc)} {row : PreparedIndexingEvent Doc}
    (found : newest rows = some row) :
    row ∈ rows ∧ ∀ other ∈ rows, other.event.sequence ≤ row.event.sequence := by
  induction rows generalizing row with
  | nil => cases found
  | cons head rows ih =>
      unfold newest at found
      split at found
      next none =>
        cases found
        refine ⟨List.mem_cons_self, fun other member => ?_⟩
        rcases List.mem_cons.mp member with rfl | member
        · exact le_rfl
        · rw [newest_eq_none.mp none] at member
          cases member
      next later here =>
        obtain ⟨stored, greatest⟩ := ih here
        split_ifs at found with lower
        · cases found
          refine ⟨List.mem_cons_self, fun other member => ?_⟩
          rcases List.mem_cons.mp member with rfl | member
          · exact le_rfl
          · exact le_trans (greatest other member) (le_of_lt lower)
        · cases found
          refine ⟨List.mem_cons_of_mem _ stored, fun other member => ?_⟩
          rcases List.mem_cons.mp member with rfl | member
          · exact not_lt.mp lower
          · exact greatest other member

/-- **What a repair does to the store.** It finds a row under its key, or inserts
a clone of the identity's newest event. -/
theorem prepareLatestRepair_ok {repair : LatestRepairDraft} {row : PreparedIndexingEvent Doc}
    {next : EventStore Doc} (repaired : store.prepareLatestRepair repair = .ok (row, next)) :
    ∃ source ∈ store.rows, source.event.identity.logicalKey = repair.identityKey ∧
      (∀ other ∈ store.rows, other.event.identity.logicalKey = repair.identityKey →
        other.event.sequence ≤ source.event.sequence) ∧
      ((next = store ∧ row ∈ store.rows ∧ row.idempotencyKeyHash =
          indexingIdempotencyKeyHash source.event.identity repair.idempotencyKey) ∨
        (row = store.nextRow (buildLatestRepairDraft repair source) ∧
          next = store.insertOutboxEvent (buildLatestRepairDraft repair source) ∧
          store.existingForKey (indexingIdempotencyKeyHash source.event.identity
            repair.idempotencyKey) = none)) := by
  unfold prepareLatestRepair at repaired
  split at repaired
  · cases repaired
  · split at repaired
    · cases repaired
    next source found =>
      obtain ⟨member, greatest⟩ := newest_some found
      simp only [List.mem_filter, decide_eq_true_eq] at member greatest
      refine ⟨source, member.1, member.2, fun other stored key => greatest other ⟨stored, key⟩, ?_⟩
      simp only at repaired
      split at repaired
      next existing here =>
        cases repaired
        refine Or.inl ⟨rfl, List.mem_of_find?_eq_some here, ?_⟩
        have key := List.find?_some here
        simp only [decide_eq_true_eq] at key
        exact key
      next unused =>
        cases repaired
        exact Or.inr ⟨rfl, rfl, unused⟩

/-- The repair of a stored event finds its source. -/
theorem Sound.exists_repair (sound : store.Sound) {row : PreparedIndexingEvent Doc}
    (stored : row ∈ store.rows) {repair : LatestRepairDraft}
    (key : row.event.identity.logicalKey = repair.identityKey) :
    ∃ result, store.prepareLatestRepair repair = .ok result := by
  have member : row ∈ store.rows.filter fun row =>
      row.event.identity.logicalKey = repair.identityKey :=
    List.mem_filter.mpr ⟨stored, decide_eq_true key⟩
  have positive := row.event.sequence_pos
  have head := sound.heads row stored
  rw [key] at head
  unfold prepareLatestRepair
  rw [if_neg (by omega)]
  cases found : newest (store.rows.filter fun row =>
      row.event.identity.logicalKey = repair.identityKey) with
  | none =>
      rw [newest_eq_none.mp found] at member
      cases member
  | some source =>
      simp only
      split
      · exact ⟨_, rfl⟩
      · exact ⟨_, rfl⟩

theorem listLatestByIdentity_ok {afterPosition throughPosition limit : ℕ}
    {rows : List (PreparedIndexingEvent Doc)}
    (listed : store.listLatestByIdentity afterPosition throughPosition limit = .ok rows) :
    afterPosition ≤ throughPosition ∧ 0 < limit ∧
      rows = page PreparedIndexingEvent.globalPosition afterPosition limit
        (store.latestWithin afterPosition throughPosition) := by
  unfold listLatestByIdentity at listed
  split_ifs at listed with reversed unbounded
  cases listed
  exact ⟨by omega, by omega, rfl⟩

/-- Each identity with an event in the window has a latest one there. -/
theorem exists_latestWithin {afterPosition throughPosition : ℕ} (stored : store.At position event)
    (after : afterPosition < position) (through : position ≤ throughPosition) :
    ∃ row ∈ store.latestWithin afterPosition throughPosition,
      row.event.identity.logicalKey = event.identity.logicalKey ∧
        position ≤ row.globalPosition := by
  obtain ⟨row, member, rfl, rfl⟩ := stored
  obtain ⟨latest, found, greatest⟩ := Finset.exists_max_image
    ((store.rows.filter fun other =>
      other.event.identity.logicalKey = row.event.identity.logicalKey ∧
        afterPosition < other.globalPosition ∧
        other.globalPosition ≤ throughPosition).map PreparedIndexingEvent.globalPosition).toFinset
    id ⟨row.globalPosition, by
      simpa using ⟨row, ⟨member, rfl, after, through⟩, rfl⟩⟩
  simp only [List.mem_toFinset, List.mem_map, List.mem_filter, decide_eq_true_eq, id_eq,
    forall_exists_index, and_imp] at found greatest
  obtain ⟨last, ⟨lastMember, sameKey, lastAfter, lastThrough⟩, rfl⟩ := found
  refine ⟨last, ?_, sameKey, greatest _ row member rfl after through rfl⟩
  refine List.mem_filter.mpr ⟨lastMember, decide_eq_true ⟨lastThrough, ?_⟩⟩
  intro other otherMember otherKey otherAfter otherThrough
  exact greatest _ other otherMember (otherKey.trans sameKey) otherAfter otherThrough rfl

end EventStore

end ImposbroSearch.Publishing
