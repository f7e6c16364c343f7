import ImposbroSearch.Indexing.Convergence

/-!
# Delivering events of one durable log

All events the Query API prepares come from one log: the sequences of one logical
key increase, the document version equals the sequence, and event ids are fresh.
Against checkpoints written by that log every decision is a comparison of
sequences, so a delivery that meets no fault has a simple meaning: unless some
target has already advanced past the event, it writes exactly the targets that
have not reached it yet.
-/

namespace ImposbroSearch.Indexing

open ImposbroSearch.Foundation

variable {Doc : Type}

/-- The events of one log: per logical key no two share a sequence, the version
equals the sequence, and no two share an event id. -/
structure EventLog (events : Set (IndexingEventV2 Doc)) : Prop where
  version_eq : ∀ event ∈ events, event.documentVersion = event.sequence
  sequence_inj : ∀ event ∈ events, ∀ other ∈ events,
    event.identity.logicalKey = other.identity.logicalKey → event.sequence = other.sequence →
      event = other
  eventId_inj : ∀ event ∈ events, ∀ other ∈ events, event.eventId = other.eventId → event = other

/-- Every checkpoint was written by an event of the log, under its key and for
one of its targets. -/
def Named (events : Set (IndexingEventV2 Doc)) (digest : Digest Doc) (table : CheckpointTable) :
    Prop :=
  ∀ key target row, table key target = some row →
    ∃ event ∈ events, event.identity.logicalKey = key ∧ target ∈ event.targetClusters ∧
      checkpointFromEvent digest event target = some row

/-- The digest of a payload that always encodes: the log stores only envelopes
whose canonical JSON it has encoded itself. -/
abbrev encoded (digest : IndexingEventV2 Doc → String) : Digest Doc :=
  fun event => some (digest event)

/-- The attempt that meets no fault. -/
def deliver (satisfies : String → Doc → Bool) (digest : IndexingEventV2 Doc → String)
    (storage : Storage Doc) (event : IndexingEventV2 Doc) : Storage Doc :=
  workerStep satisfies (encoded digest) storage { event := event }

/-- A delivery of `event` writes `target`: it is one of the event's targets, none
of these has advanced past the event, and `target` has not reached it. -/
def Storage.Admits (storage : Storage Doc) (event : IndexingEventV2 Doc) (target : ClusterName) :
    Prop :=
  target ∈ event.targetClusters ∧
    (∀ other ∈ event.targetClusters,
      checkpointSequence storage event.identity other ≤ WithBot.some event.sequence) ∧
    checkpointSequence storage event.identity target < WithBot.some event.sequence

instance (storage : Storage Doc) (event : IndexingEventV2 Doc) (target : ClusterName) :
    Decidable (storage.Admits event target) :=
  inferInstanceAs (Decidable (_ ∧ (∀ other ∈ event.targetClusters, _) ∧ _))

variable {events : Set (IndexingEventV2 Doc)} {satisfies : String → Doc → Bool}
  {digest : IndexingEventV2 Doc → String} {storage : Storage Doc} {event : IndexingEventV2 Doc}

/-! ## Decisions are comparisons of sequences -/

/-- The decision about a target that has recorded `recorded`. -/
def compareSequence (recorded : WithBot ℕ) (sequence : ℕ) : CheckpointDecision :=
  if recorded < WithBot.some sequence then .apply
  else if recorded = WithBot.some sequence then .duplicate
  else .stale

theorem compareSequence_some (recorded sequence : ℕ) :
    compareSequence (WithBot.some recorded) sequence =
      if recorded < sequence then .apply
      else if recorded = sequence then .duplicate
      else .stale := by
  simp only [compareSequence, WithBot.coe_lt_coe, WithBot.coe_inj]

theorem EventLog.classifyEvent (log : EventLog events)
    (named : Named events (encoded digest) storage.checkpoints) (member : event ∈ events)
    (target : ClusterName) :
    Indexing.classifyEvent (encoded digest) event
        (storage.checkpoints event.identity.logicalKey target) =
      .ok (compareSequence (checkpointSequence storage event.identity target)
        event.sequence) := by
  unfold checkpointSequence
  cases found : storage.checkpoints event.identity.logicalKey target with
  | none =>
      rw [recordedSequence, compareSequence, if_pos (WithBot.bot_lt_coe _)]
      rfl
  | some row =>
      obtain ⟨writer, writerMember, sameKey, -, written⟩ := named _ _ row found
      obtain ⟨-, -, sequence, version, operation, eventId, eventDigest⟩ :=
        checkpointFromEvent_some written
      have eventVersion := log.version_eq event member
      have writerVersion := log.version_eq writer writerMember
      rw [recordedSequence, compareSequence_some]
      by_cases same : event.sequence = writer.sequence
      · obtain rfl : event = writer :=
          log.sequence_inj event member writer writerMember sameKey.symm same
        rw [classifyEvent_same eventId.symm,
          if_pos ⟨⟨sequence.symm, version.symm⟩, operation.symm⟩]
        simp only [sequence, lt_irrefl, if_true, if_false]
        exact if_pos (Option.some.inj eventDigest)
      · have other : event.eventId ≠ row.eventId := by
          intro equal
          obtain rfl := log.eventId_inj event member writer writerMember (equal.trans eventId)
          exact same rfl
        rw [classifyEvent_other other, if_neg (by omega)]
        by_cases older : event.sequence < writer.sequence
        · rw [if_pos (by omega), if_neg (by omega), if_neg (by omega)]
        · rw [if_neg (by omega), if_neg (by omega), if_pos (by omega)]

/-! ## An attempt without faults completes -/

/-- No client is missing, no call fails. -/
def noFaults : ClusterName → TargetFaults := fun _ => {}

theorem planTargets_faultless {digest : Digest Doc} {table : CheckpointTable} :
    ∀ {targets : List ClusterName},
      (∀ target ∈ targets, ∃ decision,
        classifyEvent digest event (table event.identity.logicalKey target) = .ok decision) →
      ∃ plans, planTargets digest noFaults table event targets = .ok plans
  | [], _ => ⟨[], rfl⟩
  | target :: targets, decided => by
      obtain ⟨decision, here⟩ := decided target List.mem_cons_self
      have later : ∀ other ∈ targets, ∃ decision, classifyEvent digest event
          (table event.identity.logicalKey other) = .ok decision :=
        fun other member => decided other (List.mem_cons_of_mem _ member)
      obtain ⟨plans, rest⟩ := planTargets_faultless later
      refine ⟨(target, decision) :: plans, ?_⟩
      rw [planTargets, if_neg (by simp [noFaults]), if_neg (by simp [noFaults]), here, rest]
      rfl

/-- The checkpoint of `event` for `target` exists and can be saved. -/
def Savable (digest : Digest Doc) (event : IndexingEventV2 Doc) (table : CheckpointTable)
    (target : ClusterName) : Prop :=
  ∃ row saved, checkpointFromEvent digest event target = some row ∧
    saveCheckpoint table row = .ok saved

/-- Saving one target's checkpoint leaves the others savable. -/
theorem Savable.of_save {digest : Digest Doc} {table saved : CheckpointTable}
    {target other : ClusterName} {row : TargetCheckpoint}
    (named : checkpointFromEvent digest event target = some row)
    (save : saveCheckpoint table row = .ok saved) (distinct : other ≠ target)
    (savable : Savable digest event table other) : Savable digest event saved other := by
  obtain ⟨key, cluster, -⟩ := checkpointFromEvent_some named
  obtain ⟨otherRow, otherSaved, otherNamed, otherSave⟩ := savable
  obtain ⟨otherKey, otherCluster, -⟩ := checkpointFromEvent_some otherNamed
  have kept : saved otherRow.identityKey otherRow.targetCluster =
      table otherRow.identityKey otherRow.targetCluster := by
    rw [saveCheckpoint_ok save, if_neg]
    rintro ⟨-, same⟩
    exact distinct (otherCluster.symm.trans (same.trans cluster))
  unfold saveCheckpoint at otherSave
  unfold Savable saveCheckpoint
  cases found : table otherRow.identityKey otherRow.targetCluster with
  | none => exact ⟨otherRow, _, otherNamed, by rw [kept, found]⟩
  | some older =>
      rw [found] at otherSave
      simp only at otherSave
      split_ifs at otherSave with newer
      exact ⟨otherRow, _, otherNamed, by rw [kept, found]; exact if_pos newer⟩

variable (satisfies) in
theorem applyPlans_faultless {digest : Digest Doc} (suppress : Bool)
    {plans : List (ClusterName × CheckpointDecision)} {storage : Storage Doc}
    (nodup : (plans.map Prod.fst).Nodup)
    (savable : ∀ plan ∈ plans, plan.2 = .apply →
      Savable digest event storage.checkpoints plan.1) :
    (applyPlans satisfies digest noFaults event suppress storage plans).2 = .ok () := by
  induction plans generalizing storage with
  | nil => rfl
  | cons plan plans ih =>
      obtain ⟨target, decision⟩ := plan
      simp only [List.map_cons, List.nodup_cons] at nodup
      obtain ⟨fresh, nodup⟩ := nodup
      by_cases skipped : decision ≠ .apply ∨ suppress = true
      · rw [applyPlans, if_pos skipped]
        exact ih nodup fun plan member => savable plan (List.mem_cons_of_mem _ member)
      · obtain ⟨row, saved, named, save⟩ :=
          savable (target, decision) List.mem_cons_self (by tauto)
        have effect : (storage.applySideEffect satisfies event target).checkpoints =
            storage.checkpoints := rfl
        rw [applyPlans, if_neg skipped]
        simp only [noFaults, named, effect, save]
        refine ih nodup fun plan member applies => ?_
        refine Savable.of_save named save ?_
          (savable plan (List.mem_cons_of_mem _ member) applies)
        rintro rfl
        exact fresh (List.mem_map_of_mem member)

theorem eventScope_faultless {digest : Digest Doc}
    (decided : ∀ target ∈ event.targetClusters, ∃ decision,
      classifyEvent digest event (storage.checkpoints event.identity.logicalKey target) =
        .ok decision)
    (savable : ∀ target ∈ event.targetClusters,
      classifyEvent digest event (storage.checkpoints event.identity.logicalKey target) =
          .ok .apply →
        Savable digest event storage.checkpoints target) :
    ∃ result, (eventScope satisfies digest storage { event := event }).2 = .ok result := by
  obtain ⟨plans, planned⟩ := planTargets_faultless decided
  obtain ⟨names, decisions⟩ := planTargets_ok planned
  have applied := applyPlans_faultless satisfies ((plans.map Prod.snd).contains .stale)
    (by rw [names]; exact event.targets_nodup)
    (fun plan member applies => savable plan.1 (names ▸ List.mem_map_of_mem member)
      (applies ▸ decisions plan member))
  refine ⟨resultOf (plans.map Prod.snd), ?_⟩
  simp only [eventScope, processV2Event, if_true]
  rw [show (fun _ => {} : ClusterName → TargetFaults) = noFaults from rfl, planned]
  simp only
  generalize applyPlans satisfies digest noFaults event ((plans.map Prod.snd).contains .stale)
    storage plans = reached at applied ⊢
  obtain ⟨reached, outcome⟩ := reached
  rw [show outcome = .ok () from applied]

/-! ## What a delivery does -/

theorem compareSequence_apply {recorded : WithBot ℕ} {sequence : ℕ} :
    compareSequence recorded sequence = .apply ↔ recorded < WithBot.some sequence := by
  unfold compareSequence
  split_ifs with newer equal
  · simp [newer]
  · simp [newer]
  · simp [newer]

theorem compareSequence_stale {recorded : WithBot ℕ} {sequence : ℕ} :
    compareSequence recorded sequence = .stale ↔ WithBot.some sequence < recorded := by
  unfold compareSequence
  split_ifs with newer equal
  · simp [le_of_lt newer]
  · simp [equal]
  · simpa using lt_of_le_of_ne (not_lt.mp newer) (Ne.symm equal)

/-- Against the log's own checkpoints a faultless attempt completes. -/
theorem EventLog.deliver_completes (satisfies : String → Doc → Bool) (log : EventLog events)
    (named : Named events (encoded digest) storage.checkpoints) (member : event ∈ events) :
    ∃ result, (eventScope satisfies (encoded digest) storage { event := event }).2 =
      .ok result := by
  refine eventScope_faultless
    (fun target _ => ⟨_, log.classifyEvent named member target⟩) fun target _ applies => ?_
  obtain ⟨row, written⟩ : ∃ row, checkpointFromEvent (encoded digest) event target = some row :=
    ⟨_, rfl⟩
  obtain ⟨key, cluster, sequence, version, -⟩ := checkpointFromEvent_some written
  refine ⟨row, ?_⟩
  unfold saveCheckpoint
  rw [key, cluster]
  cases found : storage.checkpoints event.identity.logicalKey target with
  | none => exact ⟨_, written, rfl⟩
  | some older =>
      obtain ⟨writer, -, writerKey, -, olderWritten⟩ := named _ _ older found
      obtain ⟨olderKey, olderCluster, -⟩ := checkpointFromEvent_some olderWritten
      obtain ⟨-, olderSequence, olderVersion⟩ := classifyEvent_apply_iff.mp applies older found
      have newer : older.identityKey = event.identity.logicalKey ∧ older.targetCluster = target ∧
          older.sequence < row.sequence ∧ older.documentVersion < row.documentVersion :=
        ⟨olderKey.trans writerKey, olderCluster, by omega, by omega⟩
      exact ⟨_, written, if_pos newer⟩

/-- **One delivery, one target.** -/
theorem EventLog.deliver_cell (satisfies : String → Doc → Bool) (log : EventLog events)
    (named : Named events (encoded digest) storage.checkpoints) (member : event ∈ events)
    {target : ClusterName} (targeted : target ∈ event.targetClusters) :
    (deliver satisfies digest storage event).cell event target =
      if storage.Admits event target then
        (event.mutation.effect satisfies (storage.cell event target).1,
          checkpointFromEvent (encoded digest) event target)
      else storage.cell event target := by
  have decision : ∀ other, Indexing.classifyEvent (encoded digest) event
      (storage.cell event other).2 =
        .ok (compareSequence (checkpointSequence storage event.identity other) event.sequence) :=
    fun other => log.classifyEvent named member other
  obtain ⟨result, completed⟩ := log.deliver_completes satisfies named member
  rcases eventScope_completed completed with ⟨⟨other, planned, stale⟩, kept⟩ | settled
  · -- some target has advanced past the event, so every write is suppressed
    rw [if_neg]
    · exact kept target targeted
    · rintro ⟨-, reached, -⟩
      have advanced := (decision other).symm.trans stale
      rw [Except.ok.injEq, compareSequence_stale] at advanced
      exact absurd (reached other planned) (not_le_of_gt advanced)
  · have reached : ∀ other ∈ event.targetClusters,
        checkpointSequence storage event.identity other ≤ WithBot.some event.sequence := by
      intro other planned
      by_contra advanced
      have stale := compareSequence_stale.mpr (not_le.mp advanced)
      rcases settled other planned with ⟨duplicate, -⟩ | ⟨applies, -⟩
      · have same := (decision other).symm.trans duplicate
        rw [stale] at same
        cases same
      · have same := (decision other).symm.trans applies
        rw [stale] at same
        cases same
    rcases settled target targeted with ⟨duplicate, kept⟩ | ⟨applies, row, written, recorded⟩
    · rw [if_neg]
      · exact kept
      · rintro ⟨-, -, newer⟩
        have same := (decision target).symm.trans duplicate
        rw [compareSequence_apply.mpr newer] at same
        cases same
    · have same := (decision target).symm.trans applies
      rw [Except.ok.injEq, compareSequence_apply] at same
      rw [if_pos ⟨targeted, reached, same⟩, written]
      exact recorded

/-- **The documents after a delivery.** -/
theorem EventLog.deliver_documents (satisfies : String → Doc → Bool) (log : EventLog events)
    (named : Named events (encoded digest) storage.checkpoints) (member : event ∈ events)
    (cluster : ClusterName) (address : PhysicalAddress) :
    (deliver satisfies digest storage event).documents cluster address =
      if storage.Admits event cluster ∧ address = event.identity.address then
        event.mutation.effect satisfies (storage.documents cluster address)
      else storage.documents cluster address := by
  by_cases here : cluster ∈ event.targetClusters ∧ address = event.identity.address
  · obtain ⟨targeted, rfl⟩ := here
    have cell := congrArg Prod.fst (log.deliver_cell satisfies named member targeted)
    rw [apply_ite Prod.fst] at cell
    simpa [Storage.cell] using cell
  · rw [if_neg fun written => here ⟨written.1.1, written.2⟩]
    exact eventScope_frame.1 cluster address here

/-- **The checkpoints after a delivery.** -/
theorem EventLog.deliver_checkpoints (satisfies : String → Doc → Bool) (log : EventLog events)
    (named : Named events (encoded digest) storage.checkpoints) (member : event ∈ events)
    (key : String) (cluster : ClusterName) :
    (deliver satisfies digest storage event).checkpoints key cluster =
      if storage.Admits event cluster ∧ key = event.identity.logicalKey then
        checkpointFromEvent (encoded digest) event cluster
      else storage.checkpoints key cluster := by
  by_cases here : cluster ∈ event.targetClusters ∧ key = event.identity.logicalKey
  · obtain ⟨targeted, rfl⟩ := here
    have cell := congrArg Prod.snd (log.deliver_cell satisfies named member targeted)
    rw [apply_ite Prod.snd] at cell
    simpa [Storage.cell] using cell
  · rw [if_neg fun written => here ⟨written.1.1, written.2⟩]
    exact eventScope_frame.2 key cluster here

theorem EventLog.deliver_named (satisfies : String → Doc → Bool) (log : EventLog events)
    (named : Named events (encoded digest) storage.checkpoints) (member : event ∈ events) :
    Named events (encoded digest) (deliver satisfies digest storage event).checkpoints := by
  intro key target row found
  rw [log.deliver_checkpoints satisfies named member] at found
  split_ifs at found with written
  · exact ⟨event, member, written.2.symm, written.1.1, found⟩
  · exact named key target row found

/-- The recorded sequences after a delivery. -/
theorem EventLog.deliver_sequence (satisfies : String → Doc → Bool) (log : EventLog events)
    (named : Named events (encoded digest) storage.checkpoints) (member : event ∈ events)
    (identity : EventIdentity) (cluster : ClusterName) :
    checkpointSequence (deliver satisfies digest storage event) identity cluster =
      if storage.Admits event cluster ∧ identity.logicalKey = event.identity.logicalKey then
        WithBot.some event.sequence
      else checkpointSequence storage identity cluster := by
  unfold checkpointSequence
  rw [log.deliver_checkpoints satisfies named member]
  split_ifs
  · rfl
  · rfl

end ImposbroSearch.Indexing
