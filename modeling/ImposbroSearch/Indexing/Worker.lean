import ImposbroSearch.Indexing.Checkpoint

/-!
# The worker applies one event

`_process_v2_event` first plans every target from its checkpoint and only then
performs side effects, one target at a time, saving the target's checkpoint
after each. The whole attempt runs inside `event_scope`: side effects reach the
search clusters at once, while checkpoint rows become durable only when the
scope's transaction commits, which it also tries when processing failed.

An attempt therefore carries its faults: per target, whether the client is
known, whether the load fails, how the side effect ends, and whether the save
fails; and for the scope, whether the transaction commits. A crash is an attempt
whose side effect ends early and whose scope does not commit.

`TargetMove` says once what an attempt can do to one target. Everything proved
about the worker is derived from it.
-/

namespace ImposbroSearch.Indexing

variable {Doc : Type}

/-- The search clusters together with the durable checkpoint table. -/
structure Storage (Doc : Type) where
  documents : ClusterName → PhysicalAddress → Option Doc
  checkpoints : CheckpointTable

/-- A side effect completes, or raises before or after it took effect. -/
inductive SideEffect where
  | completes
  | failsBefore
  | failsAfter
  deriving DecidableEq, Repr

structure TargetFaults where
  clientMissing : Bool := false
  loadFails : Bool := false
  sideEffect : SideEffect := .completes
  saveFails : Bool := false
  deriving DecidableEq, Repr

inductive ProcessingResult where
  | applied
  | stale
  | duplicate
  | noopMixed
  deriving DecidableEq, Repr

section Processing

variable (satisfies : String → Doc → Bool) (digest : Digest Doc)
  (faults : ClusterName → TargetFaults)

/-- `_upsert_document` or `delete_document` against one cluster. -/
def Storage.applySideEffect (storage : Storage Doc) (event : IndexingEventV2 Doc)
    (target : ClusterName) : Storage Doc :=
  { storage with
    documents := fun cluster address =>
      if cluster = target ∧ address = event.identity.address then
        event.mutation.effect satisfies (storage.documents cluster address)
      else storage.documents cluster address }

/-- The first loop of `_process_v2_event`: one decision for each target. -/
def planTargets (table : CheckpointTable) (event : IndexingEventV2 Doc) :
    List ClusterName → Except WorkerError (List (ClusterName × CheckpointDecision))
  | [] => .ok []
  | target :: targets =>
    if (faults target).clientMissing then
      .error (.missingTargetCluster target)
    else if (faults target).loadFails then
      .error (.checkpointStore s!"Failed to load PostgreSQL checkpoint for '{target}'")
    else do
      let decision ← classifyEvent digest event (table event.identity.logicalKey target)
      let plans ← planTargets table event targets
      return (target, decision) :: plans

/-- The second loop of `_process_v2_event`: the side effect and then the
checkpoint of every target whose decision is to apply. -/
def applyPlans (event : IndexingEventV2 Doc) (suppressApplies : Bool) (storage : Storage Doc) :
    List (ClusterName × CheckpointDecision) → Storage Doc × Except WorkerError Unit
  | [] => (storage, .ok ())
  | (target, decision) :: plans =>
    if decision ≠ .apply ∨ suppressApplies then
      applyPlans event suppressApplies storage plans
    else
      match (faults target).sideEffect with
      | .failsBefore => (storage, .error (.sideEffect target))
      | .failsAfter =>
        (storage.applySideEffect satisfies event target, .error (.sideEffect target))
      | .completes =>
        let storage := storage.applySideEffect satisfies event target
        match checkpointFromEvent digest event target with
        | none => (storage, .error .digestEncoding)
        | some checkpoint =>
          if (faults target).saveFails then
            (storage, .error (.checkpointStore
              s!"Failed to persist PostgreSQL checkpoint for '{target}'"))
          else
            match saveCheckpoint storage.checkpoints checkpoint with
            | .error error => (storage, .error error)
            | .ok table => applyPlans event suppressApplies { storage with checkpoints := table } plans

/-- The value `_process_v2_event` returns, from its decisions alone. -/
def resultOf (decisions : List CheckpointDecision) : ProcessingResult :=
  let suppressApplies := decisions.contains .stale
  if decisions.contains .apply ∧ ¬suppressApplies then .applied
  else if decisions.contains .stale then .stale
  else if decisions.all (· = .duplicate) then .duplicate
  else .noopMixed

/-- `_process_v2_event` -/
def processV2Event (storage : Storage Doc) (event : IndexingEventV2 Doc) :
    Storage Doc × Except WorkerError ProcessingResult :=
  match planTargets digest faults storage.checkpoints event event.targetClusters with
  | .error error => (storage, .error error)
  | .ok plans =>
    let decisions := plans.map Prod.snd
    match applyPlans satisfies digest faults event (decisions.contains .stale) storage plans with
    | (storage, .error error) => (storage, .error error)
    | (storage, .ok ()) => (storage, .ok (resultOf decisions))

end Processing

/-- One attempt to process an event, with everything that may go wrong in it. -/
structure Attempt (Doc : Type) where
  event : IndexingEventV2 Doc
  faults : ClusterName → TargetFaults := fun _ => {}
  commits : Bool := true

/-- `event_scope` around `_process_v2_event`. A scope that does not commit keeps
the side effects and loses every checkpoint it saved. -/
def eventScope (satisfies : String → Doc → Bool) (digest : Digest Doc) (storage : Storage Doc)
    (attempt : Attempt Doc) : Storage Doc × Except WorkerError ProcessingResult :=
  match processV2Event satisfies digest attempt.faults storage attempt.event with
  | (reached, outcome) =>
    if attempt.commits then (reached, outcome)
    else
      ({ reached with checkpoints := storage.checkpoints },
        match outcome with
        | .ok _ => .error (.checkpointStore "Failed to commit PostgreSQL checkpoints")
        | .error _ =>
          .error (.checkpointStore "Failed to commit partial checkpoint progress"))

/-! ## What an attempt can do to one target -/

/-- The document and the checkpoint an event is concerned with on one target. -/
def Storage.cell (storage : Storage Doc) (event : IndexingEventV2 Doc) (target : ClusterName) :
    Option Doc × Option TargetCheckpoint :=
  (storage.documents target event.identity.address,
    storage.checkpoints event.identity.logicalKey target)

/-- Everything one attempt can do to one of its targets: nothing; a side effect
whose checkpoint is not durable; or a side effect together with its checkpoint. -/
inductive TargetMove (satisfies : String → Doc → Bool) (digest : Digest Doc)
    (event : IndexingEventV2 Doc) (target : ClusterName)
    (before : Option Doc × Option TargetCheckpoint) :
    Option Doc × Option TargetCheckpoint → Prop
  | keep : TargetMove satisfies digest event target before before
  | orphan (applies : classifyEvent digest event before.2 = .ok .apply) :
      TargetMove satisfies digest event target before
        (event.mutation.effect satisfies before.1, before.2)
  | record (applies : classifyEvent digest event before.2 = .ok .apply)
      (row : TargetCheckpoint) (named : checkpointFromEvent digest event target = some row) :
      TargetMove satisfies digest event target before
        (event.mutation.effect satisfies before.1, some row)

section Inversion

variable {satisfies : String → Doc → Bool} {digest : Digest Doc}
  {faults : ClusterName → TargetFaults} {event : IndexingEventV2 Doc}

theorem planTargets_ok {table : CheckpointTable} :
    ∀ {targets : List ClusterName} {plans : List (ClusterName × CheckpointDecision)},
      planTargets digest faults table event targets = .ok plans →
        plans.map Prod.fst = targets ∧
          ∀ plan ∈ plans,
            classifyEvent digest event (table event.identity.logicalKey plan.1) = .ok plan.2
  | [], plans, h => by
      cases h
      simp
  | target :: targets, plans, h => by
      rw [planTargets] at h
      split_ifs at h
      cases found : classifyEvent digest event (table event.identity.logicalKey target) with
      | error error =>
          rw [found] at h
          cases h
      | ok decision =>
          cases rest : planTargets digest faults table event targets with
          | error error =>
              rw [found, rest] at h
              cases h
          | ok others =>
              rw [found, rest] at h
              cases h
              obtain ⟨names, decisions⟩ := planTargets_ok rest
              refine ⟨by simp [names], ?_⟩
              intro plan member
              rcases List.mem_cons.mp member with rfl | member
              · exact found
              · exact decisions plan member

theorem checkpointFromEvent_some {target : ClusterName} {row : TargetCheckpoint}
    (named : checkpointFromEvent digest event target = some row) :
    row.identityKey = event.identity.logicalKey ∧ row.targetCluster = target ∧
      row.sequence = event.sequence ∧ row.documentVersion = event.documentVersion ∧
      row.operation = event.operation ∧ row.eventId = event.eventId ∧
      digest event = some row.eventDigest := by
  obtain ⟨eventDigest, found, rfl⟩ := Option.map_eq_some_iff.mp named
  exact ⟨rfl, rfl, rfl, rfl, rfl, rfl, found⟩

theorem saveCheckpoint_error {table : CheckpointTable} {row : TargetCheckpoint}
    {error : WorkerError} (h : saveCheckpoint table row = .error error) : ¬error.IsOrdering := by
  unfold saveCheckpoint at h
  cases found : table row.identityKey row.targetCluster with
  | none =>
      simp only [found] at h
      cases h
  | some older =>
      simp only [found] at h
      split_ifs at h
      cases h
      exact id

theorem saveCheckpoint_ok {table saved : CheckpointTable} {row : TargetCheckpoint}
    (h : saveCheckpoint table row = .ok saved) (key : String) (target : ClusterName) :
    saved key target =
      if key = row.identityKey ∧ target = row.targetCluster then some row
      else table key target := by
  unfold saveCheckpoint at h
  cases found : table row.identityKey row.targetCluster with
  | none =>
      simp only [found] at h
      cases h
      rfl
  | some older =>
      simp only [found] at h
      split_ifs at h
      cases h
      rfl

variable (satisfies digest faults event) in
/-- What the second loop does with its first plan. -/
theorem applyPlans_cons_cases (suppress : Bool) (storage : Storage Doc) (target : ClusterName)
    (decision : CheckpointDecision) (plans : List (ClusterName × CheckpointDecision)) :
    let reached := applyPlans satisfies digest faults event suppress storage
      ((target, decision) :: plans)
    ((decision ≠ .apply ∨ suppress = true) ∧
        reached = applyPlans satisfies digest faults event suppress storage plans) ∨
      (decision = .apply ∧ suppress = false ∧
        ((∃ error, ¬error.IsOrdering ∧ reached = (storage, .error error)) ∨
          (∃ error, ¬error.IsOrdering ∧
            reached = (storage.applySideEffect satisfies event target, .error error)) ∨
          ∃ row table,
            checkpointFromEvent digest event target = some row ∧
              saveCheckpoint storage.checkpoints row = .ok table ∧
              reached = applyPlans satisfies digest faults event suppress
                { storage.applySideEffect satisfies event target with checkpoints := table }
                plans)) := by
  intro reached
  by_cases skipped : decision ≠ .apply ∨ suppress = true
  · left
    refine ⟨skipped, ?_⟩
    show applyPlans satisfies digest faults event suppress storage _ = _
    rw [applyPlans, if_pos skipped]
  · right
    push Not at skipped
    obtain ⟨applies, live⟩ := skipped
    have live : suppress = false := by simpa using live
    refine ⟨applies, live, ?_⟩
    have unfolded : reached = applyPlans satisfies digest faults event suppress storage
        ((target, decision) :: plans) := rfl
    rw [applyPlans, if_neg (by simp [applies, live])] at unfolded
    cases effect : (faults target).sideEffect with
    | failsBefore =>
        rw [effect] at unfolded
        exact Or.inl ⟨_, id, unfolded⟩
    | failsAfter =>
        rw [effect] at unfolded
        exact Or.inr (Or.inl ⟨_, id, unfolded⟩)
    | completes =>
        rw [effect] at unfolded
        cases named : checkpointFromEvent digest event target with
        | none =>
            simp only [named] at unfolded
            exact Or.inr (Or.inl ⟨_, id, unfolded⟩)
        | some row =>
            simp only [named] at unfolded
            split_ifs at unfolded
            · exact Or.inr (Or.inl ⟨_, id, unfolded⟩)
            cases saved : saveCheckpoint storage.checkpoints row with
            | error error =>
                rw [show (storage.applySideEffect satisfies event target).checkpoints =
                  storage.checkpoints from rfl, saved] at unfolded
                exact Or.inr (Or.inl ⟨_, saveCheckpoint_error saved, unfolded⟩)
            | ok table =>
                rw [show (storage.applySideEffect satisfies event target).checkpoints =
                  storage.checkpoints from rfl, saved] at unfolded
                exact Or.inr (Or.inr ⟨row, table, rfl, saved, unfolded⟩)

variable (satisfies event) in
theorem applySideEffect_cell (storage : Storage Doc) (target other : ClusterName) :
    (storage.applySideEffect satisfies event target).cell event other =
      if other = target then
        (event.mutation.effect satisfies (storage.cell event other).1, (storage.cell event other).2)
      else storage.cell event other := by
  unfold Storage.cell Storage.applySideEffect
  by_cases same : other = target
  · simp [same]
  · simp [same]

variable (satisfies) in
/-- Recording a target's checkpoint after its side effect changes that target's
cell and no other. -/
theorem record_cell {storage : Storage Doc} {target : ClusterName} {row : TargetCheckpoint}
    {table : CheckpointTable} (named : checkpointFromEvent digest event target = some row)
    (saved : saveCheckpoint storage.checkpoints row = .ok table) (other : ClusterName) :
    Storage.cell { storage.applySideEffect satisfies event target with checkpoints := table }
        event other =
      if other = target then (event.mutation.effect satisfies (storage.cell event other).1, some row)
      else storage.cell event other := by
  obtain ⟨key, cluster, -⟩ := checkpointFromEvent_some named
  have effect := applySideEffect_cell satisfies event storage target other
  have written := saveCheckpoint_ok saved event.identity.logicalKey other
  rw [key, cluster] at written
  by_cases same : other = target
  · rw [if_pos same] at effect ⊢
    rw [if_pos ⟨rfl, same⟩] at written
    have document := congrArg Prod.fst effect
    exact Prod.ext document written
  · rw [if_neg same] at effect ⊢
    rw [if_neg (fun h => same h.2)] at written
    have document := congrArg Prod.fst effect
    exact Prod.ext document written

variable (satisfies digest faults event) in
/-- Nothing outside the event's own address and key, on the planned targets, is
touched by the second loop. -/
theorem applyPlans_frame (suppress : Bool) :
    ∀ (plans : List (ClusterName × CheckpointDecision)) (storage : Storage Doc),
      let reached := (applyPlans satisfies digest faults event suppress storage plans).1
      (∀ cluster address, ¬(cluster ∈ plans.map Prod.fst ∧ address = event.identity.address) →
          reached.documents cluster address = storage.documents cluster address) ∧
        ∀ key cluster, ¬(cluster ∈ plans.map Prod.fst ∧ key = event.identity.logicalKey) →
          reached.checkpoints key cluster = storage.checkpoints key cluster := by
  intro plans
  induction plans with
  | nil =>
      intro storage
      exact ⟨fun _ _ _ => rfl, fun _ _ _ => rfl⟩
  | cons plan plans ih =>
      intro storage
      obtain ⟨target, decision⟩ := plan
      have effect : ∀ cluster address,
          ¬(cluster ∈ target :: plans.map Prod.fst ∧ address = event.identity.address) →
            (storage.applySideEffect satisfies event target).documents cluster address =
              storage.documents cluster address := by
        intro cluster address outside
        apply if_neg
        rintro ⟨rfl, rfl⟩
        exact outside ⟨List.mem_cons_self, rfl⟩
      rcases applyPlans_cons_cases satisfies digest faults event suppress storage target decision
          plans with
        ⟨-, next⟩ | ⟨-, -, ⟨error, -, next⟩ | ⟨error, -, next⟩ | ⟨row, table, named, saved, next⟩⟩
      · rw [next]
        refine ⟨fun cluster address outside => (ih _).1 _ _ ?_, fun key cluster outside => (ih _).2 _ _ ?_⟩
        · exact fun inside => outside ⟨List.mem_cons_of_mem _ inside.1, inside.2⟩
        · exact fun inside => outside ⟨List.mem_cons_of_mem _ inside.1, inside.2⟩
      · rw [next]
        exact ⟨fun _ _ _ => rfl, fun _ _ _ => rfl⟩
      · rw [next]
        exact ⟨effect, fun _ _ _ => rfl⟩
      · rw [next]
        obtain ⟨key, cluster, -⟩ := checkpointFromEvent_some named
        refine ⟨fun cluster address outside => ?_, fun otherKey other outside => ?_⟩
        · rw [(ih _).1 _ _ (fun inside => outside ⟨List.mem_cons_of_mem _ inside.1, inside.2⟩)]
          exact effect cluster address outside
        · rw [(ih _).2 _ _ (fun inside => outside ⟨List.mem_cons_of_mem _ inside.1, inside.2⟩)]
          show table otherKey other = _
          rw [saveCheckpoint_ok saved, key, cluster]
          apply if_neg
          rintro ⟨rfl, rfl⟩
          exact outside ⟨List.mem_cons_self, rfl⟩

variable (satisfies digest faults event) in
/-- A target that is not planned keeps its cell. -/
theorem applyPlans_outside (suppress : Bool) {plans : List (ClusterName × CheckpointDecision)}
    (storage : Storage Doc) {target : ClusterName} (outside : target ∉ plans.map Prod.fst) :
    (applyPlans satisfies digest faults event suppress storage plans).1.cell event target =
      storage.cell event target :=
  Prod.ext
    ((applyPlans_frame satisfies digest faults event suppress plans storage).1 _ _
      fun inside => outside inside.1)
    ((applyPlans_frame satisfies digest faults event suppress plans storage).2 _ _
      fun inside => outside inside.1)

variable (satisfies faults) in
/-- **Second loop, one target.** Planned decisions that agree with the stored
checkpoints move every planned target by one `TargetMove`. -/
theorem applyPlans_move (suppress : Bool) :
    ∀ {plans : List (ClusterName × CheckpointDecision)} {storage : Storage Doc},
      (plans.map Prod.fst).Nodup →
      (∀ plan ∈ plans,
        classifyEvent digest event (storage.cell event plan.1).2 = .ok plan.2) →
      ∀ target ∈ plans.map Prod.fst,
        TargetMove satisfies digest event target (storage.cell event target)
          ((applyPlans satisfies digest faults event suppress storage plans).1.cell
            event target) := by
  intro plans
  induction plans with
  | nil =>
      intro storage _ _ target member
      simp at member
  | cons plan plans ih =>
      intro storage nodup decided other member
      obtain ⟨target, decision⟩ := plan
      simp only [List.map_cons, List.nodup_cons] at nodup
      obtain ⟨fresh, nodup⟩ := nodup
      have here := decided (target, decision) List.mem_cons_self
      have later : ∀ plan ∈ plans, plan.1 ≠ target := by
        rintro plan planned rfl
        exact fresh (List.mem_map_of_mem planned)
      rcases applyPlans_cons_cases satisfies digest faults event suppress storage target decision
          plans with
        ⟨-, next⟩ | ⟨rfl, -, ⟨error, -, next⟩ | ⟨error, -, next⟩ | ⟨row, table, named, saved, next⟩⟩
      · rw [next]
        rcases List.mem_cons.mp member with rfl | member
        · rw [applyPlans_outside satisfies digest faults event suppress storage fresh]
          exact .keep
        · exact ih nodup (fun plan planned => decided plan (List.mem_cons_of_mem _ planned))
            other member
      · rw [next]
        exact .keep
      · rw [next, applySideEffect_cell]
        split_ifs with same
        · subst same
          exact .orphan here
        · exact .keep
      · rw [next]
        rcases List.mem_cons.mp member with same | member
        · have same : other = target := same
          subst same
          rw [applyPlans_outside satisfies digest faults event suppress _ fresh,
            record_cell satisfies named saved, if_pos rfl]
          exact .record here row named
        · have kept : ∀ name, name ≠ target → Storage.cell
              { storage.applySideEffect satisfies event target with checkpoints := table }
              event name = storage.cell event name := by
            intro name distinct
            rw [record_cell satisfies named saved, if_neg distinct]
          have distinct : other ≠ target := fun same => fresh (same ▸ member)
          rw [← kept other distinct]
          refine ih nodup ?_ other member
          intro plan planned
          rw [kept plan.1 (later plan planned)]
          exact decided plan (List.mem_cons_of_mem _ planned)

/-- **Second loop, completed.** Unsuppressed, every target to apply ends with
the effect and its checkpoint; every other plan keeps its cell. -/
theorem applyPlans_completed {suppress : Bool} :
    ∀ {plans : List (ClusterName × CheckpointDecision)} {storage reached : Storage Doc},
      (plans.map Prod.fst).Nodup →
      applyPlans satisfies digest faults event suppress storage plans = (reached, .ok ()) →
      ∀ plan ∈ plans,
        if plan.2 = .apply ∧ suppress = false then
          ∃ row, checkpointFromEvent digest event plan.1 = some row ∧
            reached.cell event plan.1 =
              (event.mutation.effect satisfies (storage.cell event plan.1).1, some row)
        else reached.cell event plan.1 = storage.cell event plan.1 := by
  intro plans
  induction plans with
  | nil =>
      intro storage reached _ _ plan member
      simp at member
  | cons head plans ih =>
      intro storage reached nodup done plan member
      obtain ⟨target, decision⟩ := head
      simp only [List.map_cons, List.nodup_cons] at nodup
      obtain ⟨fresh, nodup⟩ := nodup
      have later : ∀ plan ∈ plans, plan.1 ≠ target := by
        rintro plan planned rfl
        exact fresh (List.mem_map_of_mem planned)
      rcases applyPlans_cons_cases satisfies digest faults event suppress storage target decision
          plans with
        ⟨skipped, next⟩ |
          ⟨rfl, live, ⟨error, -, next⟩ | ⟨error, -, next⟩ | ⟨row, table, named, saved, next⟩⟩
      · rw [next] at done
        rcases List.mem_cons.mp member with rfl | member
        · have notApplied : ¬(decision = .apply ∧ suppress = false) := by
            rintro ⟨applies, live⟩
            simp [applies, live] at skipped
          have settled := applyPlans_outside satisfies digest faults event suppress storage fresh
          rw [done] at settled
          rw [if_neg notApplied]
          exact settled
        · exact ih nodup done plan member
      · rw [next] at done
        cases done
      · rw [next] at done
        cases done
      · rw [next] at done
        rcases List.mem_cons.mp member with rfl | member
        · rw [if_pos ⟨rfl, live⟩]
          refine ⟨row, named, ?_⟩
          have settled := applyPlans_outside satisfies digest faults event suppress
            { storage.applySideEffect satisfies event target with checkpoints := table } fresh
          rw [done, record_cell satisfies named saved, if_pos rfl] at settled
          exact settled
        · have kept := record_cell satisfies named saved plan.1
          rw [if_neg (later plan member)] at kept
          have tail := ih nodup done plan member
          rw [kept] at tail
          exact tail

/-! ## The same facts for a whole attempt -/

variable {storage : Storage Doc} {attempt : Attempt Doc}

theorem processV2Event_storage {plans : List (ClusterName × CheckpointDecision)}
    (planned : planTargets digest faults storage.checkpoints event event.targetClusters =
      .ok plans) :
    (processV2Event satisfies digest faults storage event).1 =
      (applyPlans satisfies digest faults event ((plans.map Prod.snd).contains .stale)
        storage plans).1 := by
  simp only [processV2Event, planned]
  generalize applyPlans satisfies digest faults event ((plans.map Prod.snd).contains .stale)
    storage plans = result
  obtain ⟨reached, outcome⟩ := result
  cases outcome with
  | error error => rfl
  | ok done => rfl

theorem eventScope_storage (satisfies : String → Doc → Bool) (digest : Digest Doc)
    (storage : Storage Doc) (attempt : Attempt Doc) :
    let reached := (processV2Event satisfies digest attempt.faults storage attempt.event).1
    (eventScope satisfies digest storage attempt).1 =
      if attempt.commits then reached
      else { reached with checkpoints := storage.checkpoints } := by
  intro reached
  unfold eventScope
  split_ifs
  · rfl
  · rfl

/-- What an attempt leaves in storage: nothing done, or the second loop's result
with or without its checkpoints. -/
theorem eventScope_cases (satisfies : String → Doc → Bool) (digest : Digest Doc)
    (storage : Storage Doc) (attempt : Attempt Doc) :
    (eventScope satisfies digest storage attempt).1 = storage ∨
      ∃ plans, planTargets digest attempt.faults storage.checkpoints attempt.event
          attempt.event.targetClusters = .ok plans ∧
        let reached := (applyPlans satisfies digest attempt.faults attempt.event
          ((plans.map Prod.snd).contains .stale) storage plans).1
        ((eventScope satisfies digest storage attempt).1 = reached ∨
          (eventScope satisfies digest storage attempt).1 =
            { reached with checkpoints := storage.checkpoints }) := by
  rw [eventScope_storage]
  cases planned : planTargets digest attempt.faults storage.checkpoints attempt.event
      attempt.event.targetClusters with
  | error error =>
      left
      simp [processV2Event, planned]
  | ok plans =>
      right
      refine ⟨plans, rfl, ?_⟩
      rw [processV2Event_storage planned]
      split_ifs
      · exact Or.inl rfl
      · exact Or.inr rfl

/-- Losing the transaction turns a recorded effect into an orphaned one. -/
theorem TargetMove.lose {target : ClusterName}
    {before after : Option Doc × Option TargetCheckpoint}
    (move : TargetMove satisfies digest event target before after) :
    TargetMove satisfies digest event target before (after.1, before.2) := by
  cases move with
  | keep => exact .keep
  | orphan applies => exact .orphan applies
  | record applies row named => exact .orphan applies

/-- **One attempt, one target.** -/
theorem eventScope_move {target : ClusterName} (member : target ∈ attempt.event.targetClusters) :
    TargetMove satisfies digest attempt.event target (storage.cell attempt.event target)
      ((eventScope satisfies digest storage attempt).1.cell attempt.event target) := by
  rcases eventScope_cases satisfies digest storage attempt with same | ⟨plans, planned, next⟩
  · rw [same]
    exact .keep
  · obtain ⟨names, decided⟩ := planTargets_ok planned
    have move := applyPlans_move satisfies attempt.faults
      ((plans.map Prod.snd).contains .stale) (by rw [names]; exact attempt.event.targets_nodup) decided target
      (by rw [names]; exact member)
    rcases next with next | next
    · rw [next]
      exact move
    · rw [next]
      exact move.lose

/-- An attempt touches only its own address and key, on its own targets. -/
theorem eventScope_frame :
    (∀ cluster address,
        ¬(cluster ∈ attempt.event.targetClusters ∧ address = attempt.event.identity.address) →
          (eventScope satisfies digest storage attempt).1.documents cluster address =
            storage.documents cluster address) ∧
      ∀ key cluster,
        ¬(cluster ∈ attempt.event.targetClusters ∧ key = attempt.event.identity.logicalKey) →
          (eventScope satisfies digest storage attempt).1.checkpoints key cluster =
            storage.checkpoints key cluster := by
  rcases eventScope_cases satisfies digest storage attempt with same | ⟨plans, planned, next⟩
  · rw [same]
    exact ⟨fun _ _ _ => rfl, fun _ _ _ => rfl⟩
  · obtain ⟨names, -⟩ := planTargets_ok planned
    obtain ⟨documents, checkpoints⟩ := applyPlans_frame satisfies digest attempt.faults
      attempt.event ((plans.map Prod.snd).contains .stale) plans storage
    rw [names] at documents checkpoints
    rcases next with next | next
    · rw [next]
      exact ⟨documents, checkpoints⟩
    · rw [next]
      exact ⟨documents, fun _ _ _ => rfl⟩

/-- **A completed attempt.** Either a target has already advanced past the event
and nothing is touched, or every target ends with the event accounted for: it
was a duplicate there, or its effect and checkpoint are both in place. -/
theorem eventScope_completed {result : ProcessingResult}
    (completed : (eventScope satisfies digest storage attempt).2 = .ok result) :
    ((∃ target ∈ attempt.event.targetClusters,
        classifyEvent digest attempt.event (storage.cell attempt.event target).2 = .ok .stale) ∧
      ∀ target ∈ attempt.event.targetClusters,
        (eventScope satisfies digest storage attempt).1.cell attempt.event target =
          storage.cell attempt.event target) ∨
    ∀ target ∈ attempt.event.targetClusters,
      (classifyEvent digest attempt.event (storage.cell attempt.event target).2 =
          .ok .duplicate ∧
        (eventScope satisfies digest storage attempt).1.cell attempt.event target =
          storage.cell attempt.event target) ∨
      (classifyEvent digest attempt.event (storage.cell attempt.event target).2 = .ok .apply ∧
        ∃ row, checkpointFromEvent digest attempt.event target = some row ∧
          (eventScope satisfies digest storage attempt).1.cell attempt.event target =
            (attempt.event.mutation.effect satisfies (storage.cell attempt.event target).1,
              some row)) := by
  have commits : attempt.commits = true := by
    by_contra lost
    simp only [eventScope, lost, if_false] at completed
    split at completed
    · cases completed
    · cases completed
  have kept : eventScope satisfies digest storage attempt =
      processV2Event satisfies digest attempt.faults storage attempt.event := by
    simp [eventScope, commits]
  rw [kept] at completed ⊢
  cases planned : planTargets digest attempt.faults storage.checkpoints attempt.event
      attempt.event.targetClusters with
  | error error => simp [processV2Event, planned] at completed
  | ok plans =>
      obtain ⟨names, decided⟩ := planTargets_ok planned
      have nodup : (plans.map Prod.fst).Nodup := by
        rw [names]
        exact attempt.event.targets_nodup
      have plan_of : ∀ target ∈ attempt.event.targetClusters, ∃ plan ∈ plans, plan.1 = target := by
        intro target member
        rw [← names] at member
        exact List.mem_map.mp member
      cases applied : applyPlans satisfies digest attempt.faults attempt.event
          ((plans.map Prod.snd).contains .stale) storage plans with
      | mk reached outcome =>
          cases outcome with
          | error error => simp only [processV2Event, planned, applied] at completed; cases completed
          | ok done =>
              have final : (processV2Event satisfies digest attempt.faults storage
                  attempt.event).1 = reached := by
                rw [processV2Event_storage planned, applied]
              rw [final]
              have settled := applyPlans_completed nodup applied
              by_cases stale : CheckpointDecision.stale ∈ plans.map Prod.snd
              · left
                constructor
                · obtain ⟨plan, planned, isStale⟩ := List.mem_map.mp stale
                  refine ⟨plan.1, names ▸ List.mem_map_of_mem planned, ?_⟩
                  rw [← isStale]
                  exact decided plan planned
                · intro target member
                  obtain ⟨plan, planned, rfl⟩ := plan_of target member
                  have here := settled plan planned
                  rwa [List.contains_iff_mem.mpr stale, if_neg (by simp)] at here
              · right
                intro target member
                obtain ⟨plan, planned, rfl⟩ := plan_of target member
                have here := settled plan planned
                have decision := decided plan planned
                have live : (plans.map Prod.snd).contains .stale = false := by
                  rw [← Bool.not_eq_true, List.contains_iff_mem]
                  exact stale
                cases known : plan.2 with
                | apply =>
                    rw [if_pos ⟨known, live⟩] at here
                    rw [known] at decision
                    exact Or.inr ⟨decision, here⟩
                | duplicate =>
                    rw [if_neg (by simp [known])] at here
                    rw [known] at decision
                    exact Or.inl ⟨decision, here⟩
                | stale =>
                    exact absurd (List.mem_map.mpr ⟨plan, planned, known⟩) stale

theorem planTargets_ordering {table : CheckpointTable} {error : WorkerError} :
    ∀ {targets : List ClusterName},
      planTargets digest faults table event targets = .error error → error.IsOrdering →
        ∃ target ∈ targets,
          classifyEvent digest event (table event.identity.logicalKey target) = .error error
  | [], h, _ => by cases h
  | target :: targets, h, ordering => by
      rw [planTargets] at h
      split_ifs at h
      · cases h
        exact ordering.elim
      · cases h
        exact ordering.elim
      cases found : classifyEvent digest event (table event.identity.logicalKey target) with
      | error raised =>
          rw [found] at h
          cases h
          exact ⟨target, List.mem_cons_self, found⟩
      | ok decision =>
          cases rest : planTargets digest faults table event targets with
          | error raised =>
              rw [found, rest] at h
              cases h
              obtain ⟨other, member, raised⟩ := planTargets_ordering rest ordering
              exact ⟨other, List.mem_cons_of_mem _ member, raised⟩
          | ok others =>
              rw [found, rest] at h
              cases h

theorem applyPlans_ordering {suppress : Bool} {error : WorkerError} :
    ∀ {plans : List (ClusterName × CheckpointDecision)} {storage : Storage Doc},
      (applyPlans satisfies digest faults event suppress storage plans).2 = .error error →
        ¬error.IsOrdering := by
  intro plans
  induction plans with
  | nil =>
      intro storage h
      cases h
  | cons plan plans ih =>
      intro storage h
      obtain ⟨target, decision⟩ := plan
      rcases applyPlans_cons_cases satisfies digest faults event suppress storage target decision
          plans with
        ⟨-, next⟩ | ⟨-, -, ⟨raised, other, next⟩ | ⟨raised, other, next⟩ | ⟨row, table, -, -, next⟩⟩
      · exact ih (next ▸ h)
      · rw [next] at h
        cases h
        exact other
      · rw [next] at h
        cases h
        exact other
      · exact ih (next ▸ h)

/-- An `EventOrderingError` always comes from the decision about some target. -/
theorem eventScope_ordering {error : WorkerError}
    (raised : (eventScope satisfies digest storage attempt).2 = .error error)
    (ordering : error.IsOrdering) :
    ∃ target ∈ attempt.event.targetClusters,
      classifyEvent digest attempt.event (storage.cell attempt.event target).2 = .error error := by
  unfold eventScope processV2Event at raised
  cases planned : planTargets digest attempt.faults storage.checkpoints attempt.event
      attempt.event.targetClusters with
  | error found =>
      rw [planned] at raised
      by_cases commits : attempt.commits = true
      · simp only [commits, if_true] at raised
        cases raised
        exact planTargets_ordering planned ordering
      · simp only [commits] at raised
        cases raised
        exact ordering.elim
  | ok plans =>
      rw [planned] at raised
      cases applied : applyPlans satisfies digest attempt.faults attempt.event
          ((plans.map Prod.snd).contains .stale) storage plans with
      | mk reached outcome =>
          simp only [applied] at raised
          have never : ∀ found, outcome = .error found → ¬found.IsOrdering := by
            rintro found rfl
            exact applyPlans_ordering (congrArg Prod.snd applied)
          by_cases commits : attempt.commits = true
          · cases outcome with
            | error found =>
                simp only [commits, if_true] at raised
                cases raised
                exact absurd ordering (never error rfl)
            | ok done =>
                simp only [commits, if_true] at raised
                cases raised
          · cases outcome with
            | error found =>
                simp only [commits] at raised
                cases raised
                exact ordering.elim
            | ok done =>
                simp only [commits] at raised
                cases raised
                exact ordering.elim

end Inversion

end ImposbroSearch.Indexing
