import ImposbroSearch.Routing.AdminOperations

/-!
# Which rollout governs a collection, and what each operation does to it

A collection has at most one rollout that is not over, and only an enabled
collection has one. An operation on a rollout is therefore an operation on the one
that governs its collection, and it governs on: as the only one that is not over,
or, once it is over too, as the last one updated.
-/

namespace ImposbroSearch.Routing

open ImposbroSearch.Foundation
open ImposbroSearch.Indexing (ClusterName)

variable {Doc : Type}

/-- An operation is accepted only on a rollout that is not over. -/
theorem RoutingRollout.ongoing_of_perform {rollout updated : RoutingRollout}
    {rollbackWindowSeconds maxKafkaLag now : ℕ} {operation : RolloutOperation}
    (done : rollout.perform rollbackWindowSeconds maxKafkaLag now operation = .ok updated) :
    ¬rollout.phase.IsTerminal := by
  intro terminal
  cases operation with
  | transition target expectedVersion requested evidence =>
      unfold RoutingRollout.perform at done
      simp only at done
      split at done
      · cases done
      · have allowed := (RoutingRollout.transition_ok done).1
        rw [terminal.no_transition] at allowed
        cases allowed
  | recordBackfillProgress =>
      have here := (RoutingRollout.recordBackfillProgress_ok done).1
      rw [here] at terminal
      exact absurd terminal (by decide)
  | recordParityEvidence =>
      have here := (RoutingRollout.recordParityEvidence_ok done).1
      rw [here] at terminal
      exact absurd terminal (by decide)

namespace RoutingRuntime

variable {runtime updated : RoutingRuntime Doc} {collection : String}

/-- **What every reachable state satisfies.** -/
structure Consistent (runtime : RoutingRuntime Doc) : Prop where
  dated : ∀ record ∈ runtime.routingRollouts, record.updatedAt ≤ runtime.now
  single : ∀ first ∈ runtime.routingRollouts, ∀ second ∈ runtime.routingRollouts,
    first.plan.collection = second.plan.collection → ¬first.rollout.phase.IsTerminal →
      ¬second.rollout.phase.IsTerminal → first = second
  enabled : ∀ record ∈ runtime.routingRollouts, ¬record.rollout.phase.IsTerminal →
    runtime.isDisabled record.plan.collection = false

theorem Consistent.initial (federation : FederationService) :
    (RoutingRuntime.initial federation : RoutingRuntime Doc).Consistent where
  dated := by simp [RoutingRuntime.initial]
  single := by simp [RoutingRuntime.initial]
  enabled := by simp [RoutingRuntime.initial]

theorem Consistent.tick (consistent : runtime.Consistent) (elapsed : ℕ) :
    (runtime.tick elapsed).Consistent where
  dated record stored := (consistent.dated record stored).trans (by simp [RoutingRuntime.tick]; omega)
  single := consistent.single
  enabled := consistent.enabled

/-- Every stored rollout was updated before the operation at hand. -/
theorem Consistent.older_tick (consistent : runtime.Consistent) (elapsed : ℕ) :
    ∀ held ∈ (runtime.tick elapsed).routingRollouts,
      held.updatedAt < (runtime.tick elapsed).now := by
  intro held stored
  have dated := consistent.dated held stored
  show held.updatedAt < runtime.now + elapsed + 1
  omega

/-! ## Entries -/

theorem isDisabled_withEntry (entry : RoutingEntry Doc) (other : String) :
    (runtime.withEntry collection entry).isDisabled other =
      if other = collection then entry.disabled else runtime.isDisabled other := by
  unfold isDisabled withEntry
  rw [lookup_setEntry]
  split_ifs
  · rfl
  · rfl

theorem storedPolicy_withEntry (entry : RoutingEntry Doc) (other : String) :
    (runtime.withEntry collection entry).storedPolicy other =
      if other = collection then entry.policy else runtime.storedPolicy other := by
  unfold storedPolicy withEntry
  rw [lookup_setEntry]
  split_ifs
  · rfl
  · rfl

@[simp] theorem rolloutForCollection_withEntry (entry : RoutingEntry Doc) (other : String) :
    (runtime.withEntry collection entry).rolloutForCollection other =
      runtime.rolloutForCollection other := rfl

theorem Consistent.withEntry (consistent : runtime.Consistent) (entry : RoutingEntry Doc)
    (allowed : entry.disabled = true →
      ∀ record ∈ runtime.routingRollouts, record.plan.collection = collection →
        record.rollout.phase.IsTerminal) :
    (runtime.withEntry collection entry).Consistent where
  dated := consistent.dated
  single := consistent.single
  enabled record stored ongoing := by
    rw [isDisabled_withEntry]
    split_ifs with here
    · by_contra disabled
      exact ongoing (allowed (by simpa using disabled) record stored here)
    · exact consistent.enabled record stored ongoing

/-! ## Rollouts -/

/-- Without an active rollout every rollout of the collection is over. -/
theorem over_of_activeRollout (idle : runtime.activeRollout collection = none) :
    ∀ record ∈ runtime.routingRollouts, record.plan.collection = collection →
      record.rollout.phase.IsTerminal := by
  intro record stored here
  by_contra ongoing
  have found := List.find?_eq_none.mp idle record stored
  simp [here, ongoing] at found

theorem draftRefusal_none {candidate : RoutingRules Doc}
    (accepted : runtime.draftRefusal collection candidate = none) :
    runtime.isDisabled collection = false ∧ runtime.activeRollout collection = none ∧
      runtime.federation.missingClusters candidate = [] := by
  unfold draftRefusal at accepted
  split at accepted
  · cases accepted
  next enabled =>
    split at accepted
    · cases accepted
    next idle =>
      split at accepted
      · cases accepted
      next named => exact ⟨by simpa using enabled, idle, not_not.mp named⟩

/-- **What creating a rollout did.** -/
theorem createRollout_ok {candidate : RoutingRules Doc} {window : ℕ} {rolloutId : String}
    (done : runtime.createRollout collection candidate window rolloutId = .ok updated) :
    runtime.draftRefusal collection candidate = none ∧
      rolloutId ∉ runtime.routingRollouts.map (·.plan.rolloutId) ∧
      updated.federation = runtime.federation ∧ updated.routingRules = runtime.routingRules ∧
      updated.routingRollouts = runtime.routingRollouts ++
        [runtime.draft collection candidate window rolloutId] ∧
      updated.now = runtime.now := by
  unfold createRollout at done
  split at done
  · cases done
  next accepted =>
    split at done
    · cases done
    next fresh =>
      cases done
      exact ⟨accepted, fresh, rfl, rfl, rfl, rfl⟩

theorem rolloutById_some {rolloutId : String} {record : RolloutRecord Doc}
    (found : runtime.rolloutById rolloutId = some record) :
    record ∈ runtime.routingRollouts ∧ record.plan.rolloutId = rolloutId :=
  ⟨List.mem_of_find?_eq_some found, by simpa using List.find?_some found⟩

/-- A rollout id names one record. -/
theorem eq_of_rolloutId {first second : RolloutRecord Doc}
    (stored : first ∈ runtime.routingRollouts) (other : second ∈ runtime.routingRollouts)
    (same : first.plan.rolloutId = second.plan.rolloutId) : first = second :=
  List.inj_on_of_nodup_map runtime.rollouts_nodup stored other same

/-- The rollout that is not over governs. -/
theorem Consistent.governs (consistent : runtime.Consistent) {record : RolloutRecord Doc}
    (stored : record ∈ runtime.routingRollouts) (ongoing : ¬record.rollout.phase.IsTerminal) :
    runtime.rolloutForCollection record.plan.collection = some record := by
  refine rolloutForCollection_of_active ?_ ongoing ?_
  · simp [rolloutsOf, stored]
  · intro other here still
    obtain ⟨held, same⟩ : other ∈ runtime.routingRollouts ∧
        other.plan.collection = record.plan.collection := by simpa [rolloutsOf] using here
    exact consistent.single other held record stored same still ongoing

/-- A new draft governs its collection, and no other is affected. -/
theorem rolloutForCollection_draft {candidate : RoutingRules Doc} {window : ℕ}
    {rolloutId : String}
    (done : runtime.createRollout collection candidate window rolloutId = .ok updated)
    (other : String) :
    updated.rolloutForCollection other =
      if other = collection then some (runtime.draft collection candidate window rolloutId)
      else runtime.rolloutForCollection other := by
  obtain ⟨accepted, -, -, -, rollouts, -⟩ := createRollout_ok done
  have terminal := over_of_activeRollout (draftRefusal_none accepted).2.1
  have here : updated.rolloutsOf other = runtime.rolloutsOf other ++
      [runtime.draft collection candidate window rolloutId].filter
        fun record => record.plan.collection = other := by
    unfold rolloutsOf
    rw [rollouts, List.filter_append]
  split_ifs with same
  · subst same
    refine rolloutForCollection_of_active ?_ ?_ ?_
    · rw [here]
      simp [draft]
    · show ¬RolloutPhase.draft.IsTerminal
      decide
    · intro record member ongoing
      rw [here] at member
      rcases List.mem_append.mp member with earlier | new
      · obtain ⟨stored, named⟩ : record ∈ runtime.routingRollouts ∧
            record.plan.collection = other := by simpa [rolloutsOf] using earlier
        exact absurd (terminal record stored named) ongoing
      · exact List.mem_singleton.mp (List.mem_of_mem_filter new)
  · have unchanged : updated.rolloutsOf other = runtime.rolloutsOf other := by
      rw [here]
      simp [draft, Ne.symm same]
    unfold rolloutForCollection
    rw [unchanged]

theorem Consistent.createRollout (consistent : runtime.Consistent) {candidate : RoutingRules Doc}
    {window : ℕ} {rolloutId : String}
    (done : runtime.createRollout collection candidate window rolloutId = .ok updated) :
    updated.Consistent := by
  obtain ⟨accepted, -, -, rules, rollouts, now⟩ := createRollout_ok done
  obtain ⟨enabled, idle, -⟩ := draftRefusal_none accepted
  have terminal := over_of_activeRollout idle
  have cases_of : ∀ record ∈ updated.routingRollouts, record ∈ runtime.routingRollouts ∨
      record = runtime.draft collection candidate window rolloutId := by
    intro record member
    rw [rollouts] at member
    simpa using member
  constructor
  case dated =>
    intro record member
    rw [now]
    rcases cases_of record member with stored | rfl
    · exact consistent.dated record stored
    · exact le_rfl
  case single =>
    intro first member second member' same ongoing ongoing'
    rcases cases_of first member with stored | rfl
    · rcases cases_of second member' with stored' | rfl
      · exact consistent.single first stored second stored' same ongoing ongoing'
      · exact absurd (terminal first stored same) ongoing
    · rcases cases_of second member' with stored' | rfl
      · exact absurd (terminal second stored' same.symm) ongoing'
      · rfl
  case enabled =>
    intro record member ongoing
    have same : updated.isDisabled record.plan.collection =
        runtime.isDisabled record.plan.collection := by
      unfold isDisabled
      rw [rules]
    rw [same]
    rcases cases_of record member with stored | rfl
    · exact consistent.enabled record stored ongoing
    · exact enabled

/-- The revised records of a collection are those of before, one of them revised. -/
theorem rolloutsOf_withRollout (record : RolloutRecord Doc) (rollout : RoutingRollout)
    (other : String) :
    (runtime.withRollout record rollout).rolloutsOf other =
      (runtime.rolloutsOf other).map (runtime.revised record.plan.rolloutId rollout) := by
  unfold rolloutsOf withRollout
  rw [List.filter_map]
  congr 1
  refine List.filter_congr fun held _ => ?_
  simp

variable {record : RolloutRecord Doc} {rollout : RoutingRollout}

theorem revised_self (runtime : RoutingRuntime Doc) (record : RolloutRecord Doc)
    (rollout : RoutingRollout) :
    runtime.revised record.plan.rolloutId rollout record =
      { record with
        rollout := rollout
        updatedAt := runtime.now } := by
  unfold revised
  rw [if_pos rfl]

theorem revised_other (runtime : RoutingRuntime Doc) {record held : RolloutRecord Doc}
    (rollout : RoutingRollout) (differs : held.plan.rolloutId ≠ record.plan.rolloutId) :
    runtime.revised record.plan.rolloutId rollout held = held := by
  unfold revised
  rw [if_neg differs]

/-- A revised record is the record itself, revised, or another one as it was. -/
theorem mem_withRollout (stored : record ∈ runtime.routingRollouts) {held : RolloutRecord Doc}
    (member : held ∈ (runtime.withRollout record rollout).routingRollouts) :
    held = runtime.revised record.plan.rolloutId rollout record ∨
      (held ∈ runtime.routingRollouts ∧ held ≠ record) := by
  obtain ⟨before, here, rfl⟩ := List.mem_map.mp member
  by_cases same : before.plan.rolloutId = record.plan.rolloutId
  · obtain rfl := eq_of_rolloutId here stored same
    exact Or.inl rfl
  · rw [revised_other runtime rollout same]
    exact Or.inr ⟨here, fun equal => same (equal ▸ rfl)⟩

/-- **The rollout an operation is performed on governs before and after.** -/
theorem Consistent.rolloutForCollection_withRollout (consistent : runtime.Consistent)
    (older : ∀ held ∈ runtime.routingRollouts, held.updatedAt < runtime.now)
    (stored : record ∈ runtime.routingRollouts) (ongoing : ¬record.rollout.phase.IsTerminal)
    (other : String) :
    (runtime.withRollout record rollout).rolloutForCollection other =
      if other = record.plan.collection then
        some (runtime.revised record.plan.rolloutId rollout record)
      else runtime.rolloutForCollection other := by
  split_ifs with same
  · subst same
    have here : record ∈ runtime.rolloutsOf record.plan.collection := by
      simp [rolloutsOf, stored]
    have revisedHere : runtime.revised record.plan.rolloutId rollout record ∈
        (runtime.withRollout record rollout).rolloutsOf record.plan.collection := by
      rw [rolloutsOf_withRollout]
      exact List.mem_map_of_mem here
    have others : ∀ held ∈ (runtime.withRollout record rollout).rolloutsOf
        record.plan.collection,
        held ≠ runtime.revised record.plan.rolloutId rollout record →
        held ∈ runtime.routingRollouts ∧ held.rollout.phase.IsTerminal := by
      intro held member differs
      obtain ⟨kept, named⟩ := List.mem_filter.mp member
      obtain same | ⟨before, another⟩ := mem_withRollout stored kept
      · exact absurd same differs
      · refine ⟨before, ?_⟩
        by_contra still
        exact another (consistent.single held before record stored (by simpa using named)
          still ongoing)
    by_cases terminal : rollout.phase.IsTerminal
    · refine rolloutForCollection_of_over revisedHere ?_ ?_
      · intro held member
        by_cases self : held = runtime.revised record.plan.rolloutId rollout record
        · rw [self, revised_self]
          exact terminal
        · exact (others held member self).2
      · intro held member self
        rw [revised_self]
        exact older held (others held member self).1
    · refine rolloutForCollection_of_active revisedHere ?_ ?_
      · rw [revised_self]
        exact terminal
      · intro held member still
        by_contra self
        exact still (others held member self).2
  · -- No record of another collection has this id.
    have unchanged : (runtime.withRollout record rollout).rolloutsOf other =
        runtime.rolloutsOf other := by
      rw [rolloutsOf_withRollout]
      refine (List.map_congr_left fun held member => ?_).trans (List.map_id _)
      obtain ⟨kept, named⟩ := List.mem_filter.mp member
      refine revised_other runtime rollout fun equal => same ?_
      rw [← eq_of_rolloutId kept stored equal]
      exact (of_decide_eq_true named).symm
    unfold rolloutForCollection
    rw [unchanged]

theorem isDisabled_withRollout (record : RolloutRecord Doc) (rollout : RoutingRollout)
    (other : String) :
    (runtime.withRollout record rollout).isDisabled other =
      if rollout.phase = .completed ∧ other = record.plan.collection then false
      else runtime.isDisabled other := by
  unfold isDisabled withRollout
  split_ifs with completed both both
  · simp [both.2]
  · rw [lookup_setEntry, if_neg fun same => both ⟨completed, same⟩]
  · exact absurd both.1 completed
  · rfl

theorem storedPolicy_withRollout (record : RolloutRecord Doc) (rollout : RoutingRollout)
    (other : String) :
    (runtime.withRollout record rollout).storedPolicy other =
      if rollout.phase = .completed ∧ other = record.plan.collection then
        record.plan.candidatePolicy
      else runtime.storedPolicy other := by
  unfold storedPolicy withRollout
  split_ifs with completed both both
  · simp [both.2]
  · rw [lookup_setEntry, if_neg fun same => both ⟨completed, same⟩]
  · exact absurd both.1 completed
  · rfl

theorem Consistent.withRollout (consistent : runtime.Consistent)
    (stored : record ∈ runtime.routingRollouts) (ongoing : ¬record.rollout.phase.IsTerminal) :
    (runtime.withRollout record rollout).Consistent := by
  constructor
  case dated =>
    intro held member
    rcases mem_withRollout stored member with rfl | ⟨before, -⟩
    · rw [revised_self]
      exact le_rfl
    · exact consistent.dated held before
  case single =>
    intro first member second member' same still still'
    -- A rollout that is not over is the revised one, if it is of the same collection.
    have alone : ∀ held ∈ runtime.routingRollouts,
        held.plan.collection = record.plan.collection → ¬held.rollout.phase.IsTerminal →
        held = record := fun held before named unfinished =>
      consistent.single held before record stored named unfinished ongoing
    rcases mem_withRollout stored member with rfl | ⟨before, another⟩
    · rcases mem_withRollout stored member' with rfl | ⟨before', another'⟩
      · rfl
      · exact absurd (alone second before' (by simpa using same.symm) still') another'
    · rcases mem_withRollout stored member' with rfl | ⟨before', another'⟩
      · exact absurd (alone first before (by simpa using same) still) another
      · exact consistent.single first before second before' same still still'
  case enabled =>
    intro held member still
    rw [isDisabled_withRollout]
    split_ifs
    · rfl
    · rcases mem_withRollout stored member with rfl | ⟨before, -⟩
      · rw [revised_plan]
        exact consistent.enabled record stored ongoing
      · exact consistent.enabled held before still

/-! ## Every operation -/

/-- **Every operation keeps the state consistent.** -/
theorem Consistent.perform (consistent : runtime.Consistent) {settings : AdminSettings}
    {operation : AdminOperation Doc} (done : runtime.perform settings operation = .ok updated) :
    updated.Consistent := by
  cases performed_of_ok done with
  | registerCluster => exact ⟨consistent.dated, consistent.single, consistent.enabled⟩
  | unregisterCluster => exact ⟨consistent.dated, consistent.single, consistent.enabled⟩
  | createCollection => exact consistent.withEntry _ (by simp [RoutingEntry.reset])
  | keepCollection => exact ⟨consistent.dated, consistent.single, consistent.enabled⟩
  | deleteCollection idle => exact consistent.withEntry _ fun _ => over_of_activeRollout idle
  | keepTombstone => exact ⟨consistent.dated, consistent.single, consistent.enabled⟩
  | setRoutingRules => exact consistent.withEntry _ (by simp)
  | deleteRoutingRules => exact consistent.withEntry _ (by simp [RoutingEntry.reset])
  | createRollout done => exact consistent.createRollout done
  | rollout found performed =>
      exact consistent.withRollout (rolloutById_some found).1
        (RoutingRollout.ongoing_of_perform performed)

theorem Consistent.step (consistent : runtime.Consistent) (settings : AdminSettings)
    (action : ℕ × AdminOperation Doc) : (runtime.step settings action).Consistent := by
  unfold RoutingRuntime.step
  split
  · exact consistent.tick action.1
  next updated done => exact (consistent.tick action.1).perform done

end RoutingRuntime

end ImposbroSearch.Routing
