import ImposbroSearch.Routing.Governance

/-!
# The tombstone of a deleted collection

Deleting a collection disables its routing entry and leaves the entry in place as
a tombstone. Several endpoints rewrite a routing entry wholesale, and a completed
rollout does too. Creating the collection again lifts the tombstone, and so does
writing or resetting its rules, where the profile allows that at all. A rollout
never does: a disabled collection has no rollout that is not over.
-/

namespace ImposbroSearch.Routing

open ImposbroSearch.Foundation
open ImposbroSearch.Indexing (ClusterName)

variable {Doc : Type}

namespace RoutingRuntime

variable {settings : AdminSettings} {runtime updated : RoutingRuntime Doc} {collection : String}

/-- An accepted deletion of the collection. -/
def Buries (collection : String) (runtime : RoutingRuntime Doc) : AdminOperation Doc → Prop
  | .deleteCollection name => name = collection ∧ runtime.activeRollout collection = none
  | _ => False

/-- An accepted operation that puts a live entry in the place of the tombstone. -/
def Lifts (settings : AdminSettings) (collection : String) (runtime : RoutingRuntime Doc) :
    AdminOperation Doc → Prop
  | .createCollection name => name = collection
  | .setRoutingRules name policy =>
    name = collection ∧ runtime.rulesRefusal settings policy = none
  | .deleteRoutingRules name => name = collection ∧ settings.enterprise = false
  | _ => False

/-- Only creating the collection again lifts a tombstone in the enterprise profile. -/
theorem Lifts.eq_createCollection {operation : AdminOperation Doc}
    (enterprise : settings.enterprise = true) (lifts : Lifts settings collection runtime operation) :
    operation = .createCollection collection := by
  cases operation with
  | createCollection name => exact congrArg _ lifts
  | setRoutingRules name policy =>
      have accepted := lifts.2
      unfold rulesRefusal at accepted
      rw [if_pos enterprise] at accepted
      cases accepted
  | deleteRoutingRules name =>
      have open_ := lifts.2
      rw [enterprise] at open_
      cases open_
  | registerCluster => cases lifts
  | unregisterCluster => cases lifts
  | deleteCollection => cases lifts
  | createRollout => cases lifts
  | rollout => cases lifts

/-- A collection with a tombstone is routed nowhere, and no rollout is under way for it. -/
structure Buried (runtime : RoutingRuntime Doc) (collection : String) : Prop where
  reads : runtime.clusterNamesForSearch collection = []
  writes : ∀ document, (runtime.getIndexingRoute collection document).1 = []
  deletes : (runtime.getDeleteRoute collection).1 = []
  settled : ∀ record ∈ runtime.routingRollouts, record.plan.collection = collection →
    record.rollout.phase.IsTerminal
  drafts : ∀ candidate, runtime.draftRefusal collection candidate = some .collectionTombstoned

/-- **Every router honours the mark.** -/
theorem Consistent.buried (consistent : runtime.Consistent)
    (disabled : runtime.isDisabled collection = true) : runtime.Buried collection := by
  have policies : ∀ access, runtime.routingPolicies collection access = [] := by
    intro access
    unfold routingPolicies
    rw [if_pos disabled]
  constructor
  case reads =>
    unfold clusterNamesForSearch
    rw [policies]
    rfl
  case writes =>
    intro document
    unfold getIndexingRoute
    rw [policies]
    rfl
  case deletes =>
    unfold getDeleteRoute
    rw [if_pos disabled]
  case settled =>
    intro record stored here
    by_contra ongoing
    have enabled := consistent.enabled record stored ongoing
    rw [here, disabled] at enabled
    cases enabled
  case drafts =>
    intro candidate
    unfold draftRefusal
    rw [if_pos disabled]

/-! ## One operation -/

/-- **What an accepted operation does to the mark of a collection.** -/
theorem Consistent.isDisabled_perform (consistent : runtime.Consistent)
    {operation : AdminOperation Doc} (done : runtime.perform settings operation = .ok updated) :
    updated.isDisabled collection = true ↔
      Buries collection runtime operation ∨
        (runtime.isDisabled collection = true ∧ ¬Lifts settings collection runtime operation) := by
  cases performed_of_ok done with
  | registerCluster => simp [Buries, Lifts, isDisabled]
  | unregisterCluster => simp [Buries, Lifts, isDisabled]
  | @createCollection name unrouted =>
      rw [isDisabled_withEntry]
      by_cases same : collection = name
      · simp [Buries, Lifts, same, RoutingEntry.reset]
      · simp [Buries, Lifts, same, Ne.symm same]
  | @keepCollection name routed =>
      -- A collection that has an entry to keep carries no mark.
      have live : runtime.isDisabled name ≠ true := fun disabled => routed (Or.inr disabled)
      by_cases same : collection = name
      · subst same
        simpa [Buries, Lifts, isDisabled] using live
      · simp [Buries, Lifts, isDisabled, Ne.symm same]
  | @deleteCollection name idle enabled =>
      rw [isDisabled_withEntry]
      by_cases same : collection = name
      · simp [Buries, same, idle]
      · simp [Buries, Lifts, same, Ne.symm same]
  | @keepTombstone name idle disabled =>
      by_cases same : collection = name
      · subst same
        simpa [Buries, Lifts, isDisabled, idle] using disabled
      · simp [Buries, Lifts, isDisabled, Ne.symm same]
  | @setRoutingRules name policy accepted =>
      rw [isDisabled_withEntry]
      by_cases same : collection = name
      · simp [Buries, Lifts, same, accepted]
      · simp [Buries, Lifts, same, Ne.symm same]
  | @deleteRoutingRules name open_ =>
      rw [isDisabled_withEntry]
      by_cases same : collection = name
      · simp [Buries, Lifts, same, open_, RoutingEntry.reset]
      · simp [Buries, Lifts, same, Ne.symm same]
  | createRollout done =>
      have rules := (createRollout_ok done).2.2.2.1
      simp [Buries, Lifts, isDisabled, rules]
  | @rollout rolloutId operation record rollout found performed =>
      -- Completion writes an entry, but only for a collection that has none disabled.
      have enabled := consistent.enabled record (rolloutById_some found).1
        (RoutingRollout.ongoing_of_perform performed)
      rw [isDisabled_withRollout]
      simp only [Buries, Lifts, false_or, not_false_eq_true, and_true]
      split_ifs with completed
      · simp [completed.2, enabled]
      · exact Iff.rfl

theorem not_buries_of_error (collection : String) {operation : AdminOperation Doc}
    {error : AdminError} (refused : runtime.perform settings operation = .error error) :
    ¬Buries collection runtime operation ∧ ¬Lifts settings collection runtime operation := by
  cases operation with
  | createCollection name =>
      unfold perform createCollection at refused
      simp only at refused
      split_ifs at refused
  | deleteCollection name =>
      refine ⟨?_, id⟩
      rintro ⟨rfl, idle⟩
      unfold perform deleteCollection at refused
      simp only [idle] at refused
      split_ifs at refused
  | setRoutingRules name policy =>
      refine ⟨id, ?_⟩
      rintro ⟨rfl, accepted⟩
      unfold perform setRoutingRules at refused
      simp only [accepted] at refused
      cases refused
  | deleteRoutingRules name =>
      refine ⟨id, ?_⟩
      rintro ⟨rfl, open_⟩
      unfold perform deleteRoutingRules at refused
      simp [open_] at refused
  | registerCluster => exact ⟨id, id⟩
  | unregisterCluster => exact ⟨id, id⟩
  | createRollout => exact ⟨id, id⟩
  | rollout => exact ⟨id, id⟩

/-- The mark of a collection after one operation, accepted or refused. -/
theorem Consistent.isDisabled_step (consistent : runtime.Consistent)
    (action : ℕ × AdminOperation Doc) :
    (runtime.step settings action).isDisabled collection = true ↔
      Buries collection runtime action.2 ∨
        (runtime.isDisabled collection = true ∧ ¬Lifts settings collection runtime action.2) := by
  have buries : Buries collection (runtime.tick action.1) action.2 ↔
      Buries collection runtime action.2 := by
    cases action.2
    all_goals exact Iff.rfl
  have lifts : Lifts settings collection (runtime.tick action.1) action.2 ↔
      Lifts settings collection runtime action.2 := by
    cases action.2
    all_goals exact Iff.rfl
  unfold RoutingRuntime.step
  split
  next error refused =>
    obtain ⟨notBuries, notLifts⟩ := not_buries_of_error collection refused
    rw [buries] at notBuries
    rw [lifts] at notLifts
    simp only [notBuries, notLifts, not_false_eq_true, and_true, false_or]
    exact Iff.rfl
  next updated done =>
    rw [(consistent.tick action.1).isDisabled_perform done, buries, lifts]
    exact Iff.rfl

/-! ## Every run -/

/-- The state after some operations. -/
def after (settings : AdminSettings) (federation : FederationService)
    (actions : List (ℕ × AdminOperation Doc)) : RoutingRuntime Doc :=
  run (RoutingRuntime.step settings) (RoutingRuntime.initial federation) actions

theorem Consistent.after (settings : AdminSettings) (federation : FederationService)
    (actions : List (ℕ × AdminOperation Doc)) :
    (RoutingRuntime.after settings federation actions).Consistent :=
  run_invariant_always (fun _ action consistent => consistent.step settings action)
    (Consistent.initial federation)

/-- **A collection carries a tombstone exactly from an accepted deletion until the
first operation that lifts it,** and as long as it carries one, no read, no write and
no delete is routed for it. -/
theorem tombstone_iff_deleted_last (settings : AdminSettings) (federation : FederationService)
    (history : List (ℕ × AdminOperation Doc)) (collection : String) :
    ((after settings federation history).isDisabled collection = true ↔
      ∃ before action later, history = before ++ action :: later ∧
        Buries collection (after settings federation before) action.2 ∧
        Along (RoutingRuntime.step settings)
          (fun runtime action => ¬Lifts settings collection runtime action.2)
          (after settings federation (before ++ [action])) later) ∧
      ((after settings federation history).isDisabled collection = true →
        (after settings federation history).Buried collection) := by
  constructor
  · unfold after
    rw [run_marked_iff (fun runtime : RoutingRuntime Doc => runtime.isDisabled collection = true)
      (fun _ action consistent => Consistent.isDisabled_step consistent action)
      (fun _ action consistent => Consistent.step consistent settings action)
      (Consistent.initial federation) history]
    simp [RoutingRuntime.initial, isDisabled]
  · exact (Consistent.after settings federation history).buried

end RoutingRuntime

end ImposbroSearch.Routing
