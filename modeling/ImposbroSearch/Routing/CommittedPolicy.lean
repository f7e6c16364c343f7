import ImposbroSearch.Routing.Governance

/-!
# Is the stored policy the one in force?

`routing_rules` holds a policy for every collection, and a rollout that is over is
meant to be history. Routing nevertheless asks the newest rollout first, whether it
is over or not. The stored policy is therefore in force only as long as it agrees
with what the last rollout left behind. The operations that can break the agreement
are the ones that store a policy without a rollout, and the ones that end a rollout
in favour of a policy that is no longer the stored one.
-/

namespace ImposbroSearch.Routing

open ImposbroSearch.Foundation

variable {Doc : Type}

namespace RoutingRuntime

/-- Without a rollout under way, a collection is read and written by its stored policy. -/
def CommittedPolicyInForce (runtime : RoutingRuntime Doc) : Prop :=
  ∀ collection, runtime.isDisabled collection = false →
    (∀ record ∈ runtime.rolloutsOf collection, record.rollout.phase.IsTerminal) →
    ∀ access, runtime.routingPolicies collection access = [runtime.storedPolicy collection]

/-- The rollouts that `after` adds start from the policy in force in `before`. -/
def DraftsContinue (before after : RoutingRuntime Doc) : Prop :=
  ∀ record ∈ after.routingRollouts,
    record.plan.rolloutId ∉ before.routingRollouts.map (·.plan.rolloutId) →
    ∀ access, before.routingPolicies record.plan.collection access = [record.plan.activePolicy]

/-- A rollout that is over left this policy in force, if one governs. -/
def AgreesWithPast (runtime : RoutingRuntime Doc) (collection : String)
    (policy : RoutingRules Doc) : Prop :=
  ∀ record, runtime.rolloutForCollection collection = some record →
    record.rollout.phase.IsTerminal → record.inForce = policy

/-- The policy an operation stores agrees with the rollout that governs afterwards. -/
def KeepsAgreement (settings : AdminSettings) (runtime : RoutingRuntime Doc) :
    AdminOperation Doc → Prop
  | .createCollection collection =>
    runtime.Unrouted collection → runtime.AgreesWithPast collection .unset
  | .setRoutingRules collection policy =>
    runtime.rulesRefusal settings policy = none → runtime.AgreesWithPast collection policy
  | .deleteRoutingRules collection =>
    settings.enterprise = false → runtime.AgreesWithPast collection .unset
  | .rollout rolloutId operation =>
    ∀ record updated, runtime.rolloutById rolloutId = some record →
      record.rollout.perform record.plan.rollbackWindowSeconds settings.maxKafkaLag runtime.now
        operation = .ok updated →
      updated.phase = .cancelled ∨ updated.phase = .rolledBack →
      record.plan.activePolicy = runtime.storedPolicy record.plan.collection
  | _ => True

/-- An action keeps the agreement at the time it is performed. -/
def KeepsAgreementAt (settings : AdminSettings) (runtime : RoutingRuntime Doc)
    (action : ℕ × AdminOperation Doc) : Prop :=
  (runtime.tick action.1).KeepsAgreement settings action.2

variable {runtime updated : RoutingRuntime Doc} {collection : String} {settings : AdminSettings}

/-- **Being in force is agreeing with the past.** -/
theorem committedPolicyInForce_iff :
    runtime.CommittedPolicyInForce ↔ ∀ collection, runtime.isDisabled collection = false →
      runtime.AgreesWithPast collection (runtime.storedPolicy collection) := by
  constructor
  · intro committed collection enabled record governs terminal
    have inForce := committed collection enabled (over_of_rolloutForCollection governs terminal) .write
    unfold routingPolicies at inForce
    rw [enabled, governs] at inForce
    simp only [Bool.false_eq_true, if_false, RolloutRecord.policies_of_terminal terminal] at inForce
    exact List.singleton_inj.mp inForce
  · intro agrees collection enabled idle access
    unfold routingPolicies
    rw [enabled]
    simp only [Bool.false_eq_true, if_false]
    split
    · rfl
    next record governs =>
      obtain ⟨stored, here⟩ := rolloutForCollection_mem governs
      have terminal := idle record (by simp [rolloutsOf, stored, here])
      rw [RolloutRecord.policies_of_terminal terminal, agrees collection enabled record governs terminal]

/-- A new entry is in force if it is a tombstone or agrees with the past. -/
theorem committed_withEntry (committed : runtime.CommittedPolicyInForce)
    (entry : RoutingEntry Doc) :
    (runtime.withEntry collection entry).CommittedPolicyInForce ↔
      (entry.disabled = false → runtime.AgreesWithPast collection entry.policy) := by
  rw [committedPolicyInForce_iff] at committed ⊢
  simp only [isDisabled_withEntry, storedPolicy_withEntry]
  constructor
  · intro agrees live
    have here := agrees collection
    rw [if_pos rfl, if_pos rfl] at here
    exact here live
  · intro agrees other enabled
    split_ifs at enabled ⊢ with same
    · subst same
      exact agrees enabled
    · exact committed other enabled

/-- **The end of a rollout.** A completed one stores what it leaves in force; any
other leaves its active policy in force, which must be the stored one. -/
theorem committed_withRollout {record : RolloutRecord Doc} {rollout : RoutingRollout}
    (consistent : runtime.Consistent)
    (older : ∀ held ∈ runtime.routingRollouts, held.updatedAt < runtime.now)
    (committed : runtime.CommittedPolicyInForce)
    (stored : record ∈ runtime.routingRollouts) (ongoing : ¬record.rollout.phase.IsTerminal) :
    (runtime.withRollout record rollout).CommittedPolicyInForce ↔
      (rollout.phase = .cancelled ∨ rollout.phase = .rolledBack →
        record.plan.activePolicy = runtime.storedPolicy record.plan.collection) := by
  rw [committedPolicyInForce_iff] at committed ⊢
  unfold AgreesWithPast at committed ⊢
  simp only [isDisabled_withRollout, storedPolicy_withRollout,
    consistent.rolloutForCollection_withRollout older stored ongoing]
  constructor
  · intro agrees ended
    have unfinished : rollout.phase ≠ .completed := by
      rcases ended with phase | phase
      · simp [phase]
      · simp [phase]
    have terminal : rollout.phase.IsTerminal := RolloutPhase.isTerminal_iff.mpr (Or.inr ended)
    have here := agrees record.plan.collection (by simp [consistent.enabled record stored ongoing])
      _ (if_pos rfl) (by rw [revised_self]; exact terminal)
    rw [if_neg (fun both => unfinished both.1), revised_self] at here
    unfold RolloutRecord.inForce at here
    rw [if_neg unfinished] at here
    exact here
  · intro agrees other enabled governing governs terminal
    by_cases same : other = record.plan.collection
    · subst same
      rw [if_pos rfl] at governs
      obtain rfl := Option.some.inj governs
      rw [revised_self] at terminal ⊢
      unfold RolloutRecord.inForce
      rcases RolloutPhase.isTerminal_iff.mp terminal with phase | ended
      · have completed : rollout.phase = .completed := phase
        simp [completed]
      · have unfinished : rollout.phase ≠ .completed := by
          rcases ended with phase | phase
          · exact fun completed => by cases completed.symm.trans phase
          · exact fun completed => by cases completed.symm.trans phase
        simp only [unfinished, if_false, false_and]
        exact agrees ended
    · rw [if_neg same] at governs
      have before : runtime.isDisabled other = false := by simpa [same] using enabled
      rw [if_neg fun both => same both.2]
      exact committed other before governing governs terminal

theorem committed_createRollout {candidate : RoutingRules Doc} {window : ℕ} {rolloutId : String}
    (committed : runtime.CommittedPolicyInForce)
    (done : runtime.createRollout collection candidate window rolloutId = .ok updated) :
    updated.CommittedPolicyInForce := by
  obtain ⟨-, -, -, rules, -, -⟩ := createRollout_ok done
  rw [committedPolicyInForce_iff] at committed ⊢
  intro other enabled record governs terminal
  rw [rolloutForCollection_draft done] at governs
  split_ifs at governs with same
  · -- The draft governs now, and it is not over.
    obtain rfl := Option.some.inj governs
    exact absurd terminal (show ¬RolloutPhase.draft.IsTerminal by decide)
  · unfold isDisabled at enabled
    unfold storedPolicy
    rw [rules] at enabled ⊢
    exact committed other enabled record governs terminal

/-- **One accepted operation** leaves the stored policies in force exactly when it
keeps the agreement. -/
theorem committed_perform (consistent : runtime.Consistent)
    (older : ∀ held ∈ runtime.routingRollouts, held.updatedAt < runtime.now)
    (committed : runtime.CommittedPolicyInForce) {operation : AdminOperation Doc}
    (done : runtime.perform settings operation = .ok updated) :
    updated.CommittedPolicyInForce ↔ runtime.KeepsAgreement settings operation := by
  cases performed_of_ok done with
  | registerCluster => exact iff_of_true committed trivial
  | unregisterCluster => exact iff_of_true committed trivial
  | createCollection unrouted =>
      rw [committed_withEntry committed]
      exact ⟨fun agrees _ => agrees rfl, fun agrees _ => agrees unrouted⟩
  | keepCollection routed => exact iff_of_true committed fun unrouted => absurd unrouted routed
  | deleteCollection =>
      rw [committed_withEntry committed]
      exact iff_of_true (by simp) trivial
  | keepTombstone => exact iff_of_true committed trivial
  | setRoutingRules accepted =>
      rw [committed_withEntry committed]
      exact ⟨fun agrees _ => agrees rfl, fun agrees _ => agrees accepted⟩
  | deleteRoutingRules open_ =>
      rw [committed_withEntry committed]
      exact ⟨fun agrees _ => agrees rfl, fun agrees _ => agrees open_⟩
  | createRollout done => exact iff_of_true (committed_createRollout committed done) trivial
  | rollout found performed =>
      rw [committed_withRollout consistent older committed (rolloutById_some found).1
        (RoutingRollout.ongoing_of_perform performed)]
      constructor
      · intro agrees record' rollout' found' performed' ended
        obtain rfl := Option.some.inj (found.symm.trans found')
        obtain rfl := Except.ok.inj (performed.symm.trans performed')
        exact agrees ended
      · intro agrees ended
        exact agrees _ _ found performed ended

/-- A refused operation keeps the agreement. -/
theorem keepsAgreement_of_refused {operation : AdminOperation Doc} {error : AdminError}
    (refused : runtime.perform settings operation = .error error) :
    runtime.KeepsAgreement settings operation := by
  cases operation with
  | createCollection collection =>
      unfold RoutingRuntime.perform createCollection at refused
      simp only at refused
      split_ifs at refused
  | setRoutingRules collection policy =>
      intro accepted
      unfold RoutingRuntime.perform setRoutingRules at refused
      simp only [accepted] at refused
      cases refused
  | deleteRoutingRules collection =>
      intro enterprise
      unfold RoutingRuntime.perform deleteRoutingRules at refused
      simp [enterprise] at refused
  | rollout rolloutId operation =>
      intro record rollout found performed _
      unfold RoutingRuntime.perform performRollout at refused
      simp only [found, performed] at refused
      cases refused
  | registerCluster name => trivial
  | unregisterCluster name => trivial
  | deleteCollection collection => trivial
  | createRollout collection candidate window rolloutId => trivial

/-- **New drafts start from the policy in force**, where the stored policies are. -/
theorem draftsContinue_perform (committed : runtime.CommittedPolicyInForce)
    {operation : AdminOperation Doc} (done : runtime.perform settings operation = .ok updated) :
    DraftsContinue runtime updated := by
  -- All other operations keep the list of rollout ids.
  have same_ids : (updated.routingRollouts.map fun record => record.plan.rolloutId) =
      runtime.routingRollouts.map (fun record => record.plan.rolloutId) →
      DraftsContinue runtime updated := by
    intro same record member new
    exact absurd (same ▸ List.mem_map_of_mem member) new
  cases performed_of_ok done with
  | createRollout done =>
      obtain ⟨accepted, -, -, -, rollouts, -⟩ := createRollout_ok done
      obtain ⟨enabled, idle, -⟩ := draftRefusal_none accepted
      intro record member new access
      rw [rollouts] at member
      rcases List.mem_append.mp member with stored | drafted
      · exact absurd (List.mem_map_of_mem stored) new
      · obtain rfl := List.mem_singleton.mp drafted
        refine committed _ enabled ?_ access
        intro record here
        obtain ⟨stored, named⟩ := List.mem_filter.mp here
        exact over_of_activeRollout idle record stored (of_decide_eq_true named)
  | rollout =>
      refine same_ids ?_
      unfold withRollout
      simp
  | _ => exact same_ids rfl

/-- One action from a state whose stored policies are in force. -/
theorem committed_step (consistent : runtime.Consistent)
    (committed : runtime.CommittedPolicyInForce) (action : ℕ × AdminOperation Doc) :
    (runtime.step settings action).CommittedPolicyInForce ∧
        DraftsContinue runtime (runtime.step settings action) ↔
      runtime.KeepsAgreementAt settings action := by
  unfold RoutingRuntime.step KeepsAgreementAt
  split
  next error refused =>
    refine iff_of_true ⟨committed, ?_⟩ (keepsAgreement_of_refused refused)
    intro record stored new
    exact absurd (List.mem_map_of_mem stored) new
  next updated done =>
    have continues : DraftsContinue (runtime.tick action.1) updated :=
      draftsContinue_perform committed done
    change _ ∧ DraftsContinue (runtime.tick action.1) updated ↔ _
    rw [and_iff_left continues]
    exact committed_perform (consistent.tick action.1) (consistent.older_tick action.1) committed
      done

/-- **The committed routing policy is the effective one** throughout a sequence of
admin operations, and every new rollout starts from it, exactly when each operation
of the sequence keeps the agreement. -/
theorem committed_policy_in_force (settings : AdminSettings) (federation : FederationService)
    (actions : List (ℕ × AdminOperation Doc)) :
    Along (step settings)
        (fun runtime action => (runtime.step settings action).CommittedPolicyInForce ∧
          DraftsContinue runtime (runtime.step settings action)) (initial federation) actions ↔
      Along (step settings) (KeepsAgreementAt settings) (initial federation) actions := by
  refine along_iff_of_invariant
    (I := fun runtime => runtime.Consistent ∧ runtime.CommittedPolicyInForce) ?_ ?_ ?_
  · rintro runtime action ⟨consistent, committed⟩
    exact committed_step consistent committed action
  · rintro runtime action ⟨consistent, committed⟩ keeps
    exact ⟨consistent.step settings action,
      ((committed_step consistent committed action).mpr keeps).1⟩
  · refine ⟨Consistent.initial federation, committedPolicyInForce_iff.mpr ?_⟩
    intro collection _ record governs
    exact absurd (rolloutForCollection_mem governs).1 (by simp [initial])

/-- A cancelled rollout outlives a change of the rules. -/
def rulesAfterCancellation : List (ℕ × AdminOperation String) :=
  [(0, .createCollection "books"),
    (0, .createRollout "books" { rules := [], defaultCluster := "archive" } 900 "r1"),
    (0, .rollout "r1" (.transition .cancelled 1 none ⟨0, 0, 0⟩)),
    (0, .setRoutingRules "books" { rules := [], defaultCluster := "archive" })]

/-- The rules are stored, and documents are still routed by the older ones. -/
theorem stored_policy_not_in_force :
    ∃ runtime : RoutingRuntime String,
      run (step { enterprise := false, maxKafkaLag := 0 })
        (initial { clients := ["old", "archive"] }) rulesAfterCancellation = runtime ∧
      runtime.isDisabled "books" = false ∧
      (∀ record ∈ runtime.rolloutsOf "books", record.rollout.phase.IsTerminal) ∧
      (runtime.storedPolicy "books").defaultCluster = "archive" ∧
      (runtime.getIndexingRoute "books" "dune").1 = ["old"] ∧
      runtime.routingPolicies "books" .write ≠ [runtime.storedPolicy "books"] := by
  refine ⟨_, rfl, rfl, by decide, rfl, by decide, ?_⟩
  intro same
  exact absurd (congrArg (List.map (·.defaultCluster)) same) (by decide)

end RoutingRuntime

end ImposbroSearch.Routing
