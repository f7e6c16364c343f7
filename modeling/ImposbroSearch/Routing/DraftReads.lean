import ImposbroSearch.Routing.Governance

/-!
# Does a draft narrow reads?

A draft takes the stored policy as its active policy and reads by it. Before there
was any rollout, a collection without rules was searched on every cluster; with a
draft it is searched on its default cluster alone. And where an older rollout left
another policy in force, the draft reads by the stored one instead.
-/

namespace ImposbroSearch.Routing

open ImposbroSearch.Foundation
open ImposbroSearch.Indexing (ClusterName)

variable {Doc : Type}

namespace RoutingRuntime

/-- A transition of a rollout to `validating` or `cancelled`. -/
def DraftMove (rolloutId : String) (action : ℕ × AdminOperation Doc) : Prop :=
  ∃ target expectedVersion requested evidence,
    action.2 = .rollout rolloutId (.transition target expectedVersion requested evidence) ∧
      (target = .validating ∨ target = .cancelled)

/-- The stored policy names every cluster that is searched now: by its rules, by a
default that is the only cluster, or beside an older rollout by all its names. -/
def StoredPolicyKeepsReads (runtime : RoutingRuntime Doc) (collection : String) : Prop :=
  match runtime.rolloutForCollection collection with
  | none =>
    (runtime.storedPolicy collection).rules ≠ [] ∨
      ∀ cluster ∈ runtime.federation.clients,
        runtime.federation.resolveClusterName (runtime.storedPolicy collection).defaultCluster =
          some cluster
  | some record =>
    ∀ name ∈ record.inForce.clusterNames, ∀ cluster,
      runtime.federation.resolveClusterName name = some cluster →
      ∃ other ∈ (runtime.storedPolicy collection).clusterNames,
        runtime.federation.resolveClusterName other = some cluster

variable {runtime drafted moved : RoutingRuntime Doc} {collection : String}
  {policy candidate : RoutingRules Doc} {window : ℕ} {rolloutId : String}
  {settings : AdminSettings}

/-- Beside a rollout, reading by one policy searches where its names resolve to. -/
theorem mem_search_of_rollout {record : RolloutRecord Doc}
    (governs : runtime.rolloutForCollection collection = some record)
    (reads : runtime.routingPolicies collection .read = [policy]) {cluster : ClusterName} :
    cluster ∈ runtime.clusterNamesForSearch collection ↔
      ∃ name ∈ policy.clusterNames, runtime.federation.resolveClusterName name = some cluster := by
  rw [mem_clusterNamesForSearch, reads]
  simp [searchNames, governs, FederationService.searchCluster_eq_resolve]

/-- Without a rollout, the stored policy is searched, or everything if it has no rules. -/
theorem mem_search_of_none (idle : runtime.rolloutForCollection collection = none)
    (enabled : runtime.isDisabled collection = false) {cluster : ClusterName} :
    cluster ∈ runtime.clusterNamesForSearch collection ↔
      if (runtime.storedPolicy collection).rules = [] then cluster ∈ runtime.federation.clients
      else ∃ name ∈ (runtime.storedPolicy collection).clusterNames,
        runtime.federation.resolveClusterName name = some cluster := by
  have reads : runtime.routingPolicies collection .read = [runtime.storedPolicy collection] := by
    unfold routingPolicies
    rw [enabled, idle]
    rfl
  rw [mem_clusterNamesForSearch, reads]
  simp only [List.mem_singleton, exists_eq_left, searchNames, idle, Option.isNone_none, and_true,
    List.isEmpty_iff, FederationService.searchCluster_eq_resolve]
  split_ifs with bare
  · constructor
    · rintro ⟨name, -, resolved⟩
      exact FederationService.resolveClusterName_mem resolved
    · intro registered
      refine ⟨cluster, registered, ?_⟩
      rw [← FederationService.searchCluster_eq_resolve]
      exact FederationService.searchCluster_of_mem registered
  · rfl

/-! ## The states a draft moves through -/

/-- The state holds the new rollout, before dual-write, beside what was there before. -/
structure Drafted (runtime : RoutingRuntime Doc) (collection : String)
    (candidate : RoutingRules Doc) (window : ℕ) (rolloutId : String)
    (moved : RoutingRuntime Doc) (record : RolloutRecord Doc) : Prop where
  federation : moved.federation = runtime.federation
  rules : moved.routingRules = runtime.routingRules
  rollouts : moved.routingRollouts = runtime.routingRollouts ++ [record]
  plan : record.plan = (runtime.draft collection candidate window rolloutId).plan
  phase : record.rollout.phase.BeforeDualWrite

theorem Drafted.created
    (done : runtime.createRollout collection candidate window rolloutId = .ok drafted) :
    Drafted runtime collection candidate window rolloutId drafted
      (runtime.draft collection candidate window rolloutId) := by
  obtain ⟨-, -, federation, rules, rollouts, -⟩ := createRollout_ok done
  exact ⟨federation, rules, rollouts, rfl, Or.inl rfl⟩

/-- The new rollout is the one its id names. -/
theorem Drafted.eq_of_rolloutById
    (fresh : rolloutId ∉ runtime.routingRollouts.map (·.plan.rolloutId))
    {record found : RolloutRecord Doc}
    (state : Drafted runtime collection candidate window rolloutId moved record)
    (named : moved.rolloutById rolloutId = some found) : found = record := by
  obtain ⟨member, same⟩ := rolloutById_some named
  rw [state.rollouts] at member
  rcases List.mem_append.mp member with stored | new
  · exact absurd (same ▸ List.mem_map_of_mem stored) fresh
  · exact List.mem_singleton.mp new

/-- **A move of the draft** changes its record only. -/
theorem Drafted.step (fresh : rolloutId ∉ runtime.routingRollouts.map (·.plan.rolloutId))
    {record : RolloutRecord Doc}
    (state : Drafted runtime collection candidate window rolloutId moved record)
    {action : ℕ × AdminOperation Doc} (move : DraftMove rolloutId action) :
    ∃ record, Drafted runtime collection candidate window rolloutId
      (moved.step settings action) record := by
  obtain ⟨elapsed, operation⟩ := action
  obtain ⟨target, expectedVersion, requested, evidence, rfl, early⟩ := move
  have ticked : Drafted runtime collection candidate window rolloutId (moved.tick elapsed) record :=
    ⟨state.federation, state.rules, state.rollouts, state.plan, state.phase⟩
  unfold RoutingRuntime.step
  split
  · exact ⟨record, ticked⟩
  next updated done =>
    cases performed_of_ok done with
    | @rollout _ _ held rollout found performed =>
        obtain rfl := ticked.eq_of_rolloutById fresh found
        have phase := performed
        unfold RoutingRollout.perform at phase
        simp only at phase
        split at phase
        · cases phase
        · have entered := (RoutingRollout.transition_ok phase).2.2.1
          refine ⟨(moved.tick elapsed).revised held.plan.rolloutId rollout held, state.federation, ?_, ?_,
            ?_, ?_⟩
          · have unfinished : ¬rollout.phase = .completed := fun completed => by
              rcases early with rfl | rfl
              · cases entered.symm.trans completed
              · cases entered.symm.trans completed
            exact (if_neg unfinished).trans state.rules
          · show (moved.tick elapsed).routingRollouts.map _ = _
            rw [ticked.rollouts, List.map_append]
            congr 1
            refine (List.map_congr_left fun other stored => ?_).trans (List.map_id _)
            refine revised_other _ _ fun same => fresh ?_
            have named : held.plan.rolloutId = rolloutId := by
              rw [state.plan]
              rfl
            rw [← named, ← same]
            exact List.mem_map_of_mem stored
          · rw [revised_plan]
            exact state.plan
          · rw [revised_self]
            show rollout.phase.BeforeDualWrite
            rw [entered]
            rcases early with rfl | rfl
            · exact Or.inr (Or.inl rfl)
            · exact Or.inr (Or.inr rfl)

theorem Drafted.run (settings : AdminSettings)
    (fresh : rolloutId ∉ runtime.routingRollouts.map (·.plan.rolloutId))
    {moves : List (ℕ × AdminOperation Doc)} (draftMoves : ∀ move ∈ moves, DraftMove rolloutId move)
    {record : RolloutRecord Doc}
    (state : Drafted runtime collection candidate window rolloutId moved record) :
    ∃ record, Drafted runtime collection candidate window rolloutId
      (run (RoutingRuntime.step settings) moved moves) record := by
  induction moves generalizing moved record with
  | nil => exact ⟨record, state⟩
  | cons move moves ih =>
      obtain ⟨next, after⟩ := state.step fresh (draftMoves move List.mem_cons_self)
      exact ih (fun other later => draftMoves other (List.mem_cons_of_mem _ later)) after

/-! ## What such a state searches -/

/-- The rollout that governs beside a draft reads by the stored policy, or else it
is the one that governed before. -/
theorem Drafted.governs (accepted : runtime.draftRefusal collection candidate = none)
    {record : RolloutRecord Doc}
    (state : Drafted runtime collection candidate window rolloutId moved record) :
    moved.rolloutForCollection collection = some record ∨
      (moved.rolloutForCollection collection = runtime.rolloutForCollection collection ∧
        (runtime.rolloutForCollection collection).isSome) := by
  have terminal := over_of_activeRollout (draftRefusal_none accepted).2.1
  have here : moved.rolloutsOf collection = runtime.rolloutsOf collection ++ [record] := by
    unfold rolloutsOf
    rw [state.rollouts, List.filter_append]
    simp [state.plan, draft]
  have earlier_over : ∀ other ∈ runtime.rolloutsOf collection,
      other.rollout.phase.IsTerminal := by
    intro other member
    obtain ⟨stored, named⟩ := List.mem_filter.mp member
    exact terminal other stored (of_decide_eq_true named)
  by_cases ended : record.rollout.phase.IsTerminal
  · -- All rollouts are over, and the newest of them governs.
    have all_over : ∀ other ∈ moved.rolloutsOf collection, other.rollout.phase.IsTerminal := by
      intro other member
      rw [here] at member
      rcases List.mem_append.mp member with earlier | new
      · exact earlier_over other earlier
      · exact List.mem_singleton.mp new ▸ ended
    have newest_of : ∀ state : RoutingRuntime Doc,
        (∀ other ∈ state.rolloutsOf collection, other.rollout.phase.IsTerminal) →
        state.rolloutForCollection collection =
          RolloutRecord.newest (state.rolloutsOf collection) := by
      intro state finished
      unfold rolloutForCollection
      simp only
      rw [if_pos]
      simp only [List.isEmpty_iff, List.filter_eq_nil_iff, decide_not, Bool.not_eq_true',
        decide_eq_false_iff_not, not_not]
      exact finished
    rw [newest_of moved all_over, newest_of runtime earlier_over, here]
    cases chosen : RolloutRecord.newest (runtime.rolloutsOf collection ++ [record]) with
    | none =>
        rw [RolloutRecord.newest_eq_none] at chosen
        exact absurd chosen (by simp)
    | some newest =>
        rcases List.mem_append.mp (RolloutRecord.newest_mem chosen) with earlier | new
        · right
          have latest := RolloutRecord.not_before_newest chosen
          cases before : RolloutRecord.newest (runtime.rolloutsOf collection) with
          | none =>
              rw [RolloutRecord.newest_eq_none] at before
              rw [before] at earlier
              cases earlier
          | some former =>
              -- Neither is newer than the other, so they are one record.
              have member := RolloutRecord.newest_mem before
              have first := latest former (List.mem_append_left _ member)
              have second := RolloutRecord.not_before_newest before newest earlier
              rw [RolloutRecord.before_iff, not_lt] at first second
              have stamps := le_antisymm first second
              have ids : former.plan.rolloutId = newest.plan.rolloutId := by
                simpa using congrArg (fun stamp => (ofLex stamp).2) stamps
              have same := eq_of_rolloutId (List.mem_of_mem_filter member)
                (List.mem_of_mem_filter earlier) ids
              rw [same]
              exact ⟨rfl, rfl⟩
        · left
          rw [List.mem_singleton.mp new]
  · left
    refine rolloutForCollection_of_active (by simp [here]) ended ?_
    intro other member still
    rw [here] at member
    rcases List.mem_append.mp member with earlier | new
    · exact absurd (earlier_over other earlier) still
    · exact List.mem_singleton.mp new

/-- Before dual-write a rollout reads by its active policy. -/
theorem policies_of_beforeDualWrite {record : RolloutRecord Doc}
    (early : record.rollout.phase.BeforeDualWrite) :
    record.policies .read = [record.plan.activePolicy] := by
  unfold RolloutRecord.policies
  rcases early with phase | phase | phase
  all_goals
    rw [phase]
    rfl

/-- Beside a governing draft the stored policy is searched. -/
theorem Drafted.search (accepted : runtime.draftRefusal collection candidate = none)
    {record : RolloutRecord Doc}
    (state : Drafted runtime collection candidate window rolloutId moved record)
    (governs : moved.rolloutForCollection collection = some record) {cluster : ClusterName} :
    cluster ∈ moved.clusterNamesForSearch collection ↔
      ∃ name ∈ (runtime.storedPolicy collection).clusterNames,
        runtime.federation.resolveClusterName name = some cluster := by
  have enabled : moved.isDisabled collection = false := by
    unfold isDisabled
    rw [state.rules]
    exact (draftRefusal_none accepted).1
  have reads : moved.routingPolicies collection .read = [runtime.storedPolicy collection] := by
    unfold routingPolicies
    rw [enabled, governs]
    simp only [Bool.false_eq_true, if_false]
    rw [policies_of_beforeDualWrite state.phase, state.plan]
    rfl
  rw [mem_search_of_rollout governs reads, state.federation]

/-- What was searched is a matter of the stored policy and of the past. -/
theorem storedPolicyKeepsReads_iff (accepted : runtime.draftRefusal collection candidate = none) :
    runtime.StoredPolicyKeepsReads collection ↔
      ∀ cluster ∈ runtime.clusterNamesForSearch collection,
        ∃ name ∈ (runtime.storedPolicy collection).clusterNames,
          runtime.federation.resolveClusterName name = some cluster := by
  obtain ⟨enabled, idle, -⟩ := draftRefusal_none accepted
  unfold StoredPolicyKeepsReads
  cases governs : runtime.rolloutForCollection collection with
  | none =>
      simp only [mem_search_of_none governs enabled]
      by_cases bare : (runtime.storedPolicy collection).rules = []
      · have names : (runtime.storedPolicy collection).clusterNames =
            [(runtime.storedPolicy collection).defaultCluster] := by
          simp [RoutingRules.clusterNames, bare]
        simp [bare, names]
      · simp only [bare, if_false, ne_eq, not_false_eq_true, true_or, true_iff]
        exact fun cluster searched => searched
  | some record =>
      obtain ⟨stored, named⟩ := rolloutForCollection_mem governs
      have terminal := over_of_activeRollout idle record stored named
      have reads : runtime.routingPolicies collection .read = [record.inForce] := by
        unfold routingPolicies
        rw [enabled, governs]
        simp only [Bool.false_eq_true, if_false]
        exact RolloutRecord.policies_of_terminal terminal .read
      simp only [mem_search_of_rollout governs reads]
      constructor
      · rintro kept cluster ⟨name, inForce, resolved⟩
        exact kept name inForce cluster resolved
      · intro kept name inForce cluster resolved
        exact kept cluster ⟨name, inForce, resolved⟩

/-- Once an older rollout governs again, what was searched is searched again. -/
theorem Drafted.search_of_past (accepted : runtime.draftRefusal collection candidate = none)
    {record past : RolloutRecord Doc}
    (state : Drafted runtime collection candidate window rolloutId moved record)
    (before : runtime.rolloutForCollection collection = some past)
    (after : moved.rolloutForCollection collection = some past) {cluster : ClusterName} :
    cluster ∈ moved.clusterNamesForSearch collection ↔
      cluster ∈ runtime.clusterNamesForSearch collection := by
  obtain ⟨enabled, idle, -⟩ := draftRefusal_none accepted
  obtain ⟨stored, named⟩ := rolloutForCollection_mem before
  have terminal := over_of_activeRollout idle past stored named
  have still : moved.isDisabled collection = false := by
    unfold isDisabled
    rw [state.rules]
    exact enabled
  have reads : ∀ state : RoutingRuntime Doc, state.isDisabled collection = false →
      state.rolloutForCollection collection = some past →
      state.routingPolicies collection .read = [past.inForce] := by
    intro state live governs
    unfold routingPolicies
    rw [live, governs]
    simp only [Bool.false_eq_true, if_false]
    exact RolloutRecord.policies_of_terminal terminal .read
  rw [mem_search_of_rollout after (reads moved still after),
    mem_search_of_rollout before (reads runtime enabled before), state.federation]

/-- **A draft keeps reads** on its way to `validating` and to `cancelled` exactly when
the stored policy names every cluster that was searched before. -/
theorem draft_keeps_reads (settings : AdminSettings) (runtime drafted : RoutingRuntime Doc)
    (collection : String) (candidate : RoutingRules Doc) (window : ℕ) (rolloutId : String)
    (done : runtime.createRollout collection candidate window rolloutId = .ok drafted) :
    (∀ moves : List (ℕ × AdminOperation Doc), (∀ move ∈ moves, DraftMove rolloutId move) →
      ∀ cluster ∈ runtime.clusterNamesForSearch collection,
        cluster ∈ (run (step settings) drafted moves).clusterNamesForSearch collection) ↔
      runtime.StoredPolicyKeepsReads collection := by
  obtain ⟨accepted, fresh, -⟩ := createRollout_ok done
  have created := Drafted.created done
  rw [storedPolicyKeepsReads_iff accepted]
  constructor
  · intro kept cluster searched
    have governs : drafted.rolloutForCollection collection = some _ :=
      (rolloutForCollection_draft done collection).trans (if_pos rfl)
    exact (created.search accepted governs).mp (kept [] (by simp) cluster searched)
  · intro named moves draftMoves cluster searched
    obtain ⟨record, state⟩ := created.run settings fresh draftMoves
    rcases state.governs accepted with governs | ⟨same, some⟩
    · exact (state.search accepted governs).mpr (named cluster searched)
    · obtain ⟨past, before⟩ := Option.isSome_iff_exists.mp some
      exact (state.search_of_past accepted before (same.trans before)).mpr searched

/-- A collection without rules, on some clusters. -/
def unsharded (federation : FederationService) : RoutingRuntime String :=
  { initial federation with routingRules := [("books", .reset)] }

theorem draft_keeps_reads_of_one_cluster :
    ∃ drafted, (unsharded { clients := ["east"] }).createRollout "books" .unset 900 "r1" =
        .ok drafted ∧
      ∀ moves : List (ℕ × AdminOperation String), (∀ move ∈ moves, DraftMove "r1" move) →
        ∀ cluster ∈ (unsharded { clients := ["east"] }).clusterNamesForSearch "books",
          cluster ∈ (run (step { enterprise := true, maxKafkaLag := 0 }) drafted
            moves).clusterNamesForSearch "books" := by
  refine ⟨_, rfl, (draft_keeps_reads _ _ _ _ .unset 900 _ rfl).mpr ?_⟩
  exact Or.inr (by decide)

/-- With two clusters, one of them is searched no longer once the draft is there, and
neither is it in `validating`. -/
theorem draft_narrows_reads :
    (unsharded { clients := ["east", "west"] }).clusterNamesForSearch "books" =
        ["east", "west"] ∧
      ∃ drafted, (unsharded { clients := ["east", "west"] }).createRollout "books" .unset 900
          "r1" = .ok drafted ∧
        drafted.clusterNamesForSearch "books" = ["east"] ∧
        (drafted.step { enterprise := true, maxKafkaLag := 0 }
          (0, .rollout "r1" (.transition .validating 1 none ⟨0, 0, 0⟩))).clusterNamesForSearch
            "books" = ["east"] :=
  ⟨by decide, _, rfl, by decide, by decide⟩

end RoutingRuntime

end ImposbroSearch.Routing
