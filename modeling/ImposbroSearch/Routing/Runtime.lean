import ImposbroSearch.Routing.Rollout
import Mathlib.Data.Prod.Lex
import Mathlib.Data.String.Basic

/-!
# Routing a collection from one runtime snapshot

A snapshot holds the registered clusters, the stored policy of each collection,
and every rollout there has been. A collection with a rollout is routed by the
newest non-terminal one, or else by the newest at all, with the policies of its
phase; without any rollout it is routed by its stored policy. Reads without rules
and without a rollout go to every cluster.
-/

namespace ImposbroSearch.Routing

open ImposbroSearch.Indexing (ClusterName)

variable {Doc : Type}

namespace RolloutPhase

/-- `_TERMINAL_ROLLOUT_PHASES` -/
def terminalPhases : List RolloutPhase := [completed, cancelled, rolledBack]

/-- A rollout in this phase is over. -/
def IsTerminal (phase : RolloutPhase) : Prop := phase ∈ terminalPhases

instance (phase : RolloutPhase) : Decidable phase.IsTerminal :=
  inferInstanceAs (Decidable (_ ∈ _))

theorem isTerminal_iff {phase : RolloutPhase} :
    phase.IsTerminal ↔ phase = completed ∨ phase = cancelled ∨ phase = rolledBack := by
  simp [IsTerminal, terminalPhases]

/-- Nothing follows a terminal phase. -/
theorem IsTerminal.no_transition {phase : RolloutPhase} (terminal : phase.IsTerminal) :
    phase.allowedTransitions = [] := by
  rcases isTerminal_iff.mp terminal with rfl | rfl | rfl
  all_goals rfl

end RolloutPhase

/-- The policy of an empty dictionary. -/
def RoutingRules.unset : RoutingRules Doc := { rules := [] }

/-- An entry of `routing_rules`; a disabled one is the tombstone of a deleted collection. -/
structure RoutingEntry (Doc : Type) where
  policy : RoutingRules Doc
  disabled : Bool := false

/-- A rollout as it is stored. -/
structure RolloutRecord (Doc : Type) where
  plan : RolloutPlan Doc
  rollout : RoutingRollout
  updatedAt : ℕ

/-- `FederationRuntimeSnapshot`, as far as routing reads it, and the clock. -/
structure RoutingRuntime (Doc : Type) where
  revision : ℕ
  federation : FederationService
  routingRules : List (String × RoutingEntry Doc)
  routingRollouts : List (RolloutRecord Doc)
  rollouts_nodup : (routingRollouts.map fun record => record.plan.rolloutId).Nodup
  now : ℕ

/-- Which half of `policy_modes` is asked for. -/
inductive Access where
  | read
  | write
  deriving DecidableEq, Repr

def Access.modes (phase : RolloutPhase) : Access → List PolicyMode
  | .read => phase.readModes
  | .write => phase.writeModes

namespace RolloutRecord

/-- The order of `(updated_at, rollout_id)`. -/
def Before (first second : RolloutRecord Doc) : Prop :=
  first.updatedAt < second.updatedAt ∨
    (first.updatedAt = second.updatedAt ∧ first.plan.rolloutId < second.plan.rolloutId)

instance : DecidableRel (@Before Doc) := fun _ _ => inferInstanceAs (Decidable (_ ∨ _))

/-- The newest of some rollouts. -/
def newest : List (RolloutRecord Doc) → Option (RolloutRecord Doc)
  | [] => none
  | record :: records =>
    match newest records with
    | none => some record
    | some later => if Before record later then some later else some record

/-- The policies a rollout puts into force. -/
def policies (record : RolloutRecord Doc) (access : Access) : List (RoutingRules Doc) :=
  (access.modes record.rollout.phase).map record.plan.policy

/-- The one policy a terminal rollout leaves in force. -/
def inForce (record : RolloutRecord Doc) : RoutingRules Doc :=
  if record.rollout.phase = .completed then record.plan.candidatePolicy
  else record.plan.activePolicy

theorem newest_mem {records : List (RolloutRecord Doc)} {record : RolloutRecord Doc}
    (found : newest records = some record) : record ∈ records := by
  induction records generalizing record with
  | nil => cases found
  | cons head records ih =>
      unfold newest at found
      split at found
      · cases found
        exact List.mem_cons_self
      next later here =>
        split_ifs at found
        · cases found
          exact List.mem_cons_of_mem _ (ih here)
        · cases found
          exact List.mem_cons_self

theorem newest_eq_none {records : List (RolloutRecord Doc)} :
    newest records = none ↔ records = [] := by
  constructor
  · intro none
    cases records with
    | nil => rfl
    | cons head records =>
        unfold newest at none
        split at none
        · cases none
        · split_ifs at none
  · rintro rfl
    rfl

/-- `Before` is the lexicographic order on the stamps. -/
theorem before_iff {first second : RolloutRecord Doc} :
    first.Before second ↔ toLex (first.updatedAt, first.plan.rolloutId) <
      toLex (second.updatedAt, second.plan.rolloutId) := by
  simp [Before, Prod.Lex.toLex_lt_toLex]

/-- Nothing is newer than the newest. -/
theorem not_before_newest {records : List (RolloutRecord Doc)} {record : RolloutRecord Doc}
    (found : newest records = some record) : ∀ other ∈ records, ¬record.Before other := by
  induction records generalizing record with
  | nil => cases found
  | cons head records ih =>
      unfold newest at found
      split at found
      next none =>
        cases found
        rw [newest_eq_none] at none
        simp [none, before_iff]
      next later here =>
        intro other member
        have latest := ih here
        simp only [before_iff, not_lt] at latest ⊢
        split_ifs at found with newer
        · cases found
          rcases List.mem_cons.mp member with rfl | stored
          · exact (before_iff.mp newer).le
          · exact latest other stored
        · cases found
          rw [before_iff, not_lt] at newer
          rcases List.mem_cons.mp member with rfl | stored
          · exact le_rfl
          · exact (latest other stored).trans newer

/-- The record that all others precede is the newest. -/
theorem newest_eq {records : List (RolloutRecord Doc)} {record : RolloutRecord Doc}
    (member : record ∈ records)
    (last : ∀ other ∈ records, other ≠ record → other.updatedAt < record.updatedAt) :
    newest records = some record := by
  induction records with
  | nil => cases member
  | cons head records ih =>
      have tail : ∀ other ∈ records, other ≠ record → other.updatedAt < record.updatedAt :=
        fun other stored => last other (List.mem_cons_of_mem _ stored)
      unfold newest
      by_cases inTail : record ∈ records
      · rw [ih inTail tail]
        simp only
        by_cases same : head = record
        · rw [same]
          split_ifs
          · rfl
          · rfl
        · have before : head.Before record := Or.inl (last head List.mem_cons_self same)
          rw [if_pos before]
      · obtain rfl : record = head := by
          rcases List.mem_cons.mp member with same | stored
          · exact same
          · exact absurd stored inTail
        split
        · rfl
        next later here =>
          have stored := newest_mem here
          have older : later.updatedAt < record.updatedAt :=
            tail later stored fun same => inTail (same ▸ stored)
          rw [if_neg]
          rintro (newer | ⟨same, -⟩)
          · omega
          · omega

/-- A terminal rollout has one policy in force, for reads and for writes. -/
theorem policies_of_terminal {record : RolloutRecord Doc}
    (terminal : record.rollout.phase.IsTerminal) (access : Access) :
    record.policies access = [record.inForce] := by
  unfold policies inForce
  rcases RolloutPhase.isTerminal_iff.mp terminal with phase | phase | phase
  all_goals
    rw [phase]
    cases access
    · rfl
    · rfl

end RolloutRecord

namespace RoutingRuntime

variable (runtime : RoutingRuntime Doc) (collection : String)

/-- `routing_rules.get(collection, {}).get("disabled") is True` -/
def isDisabled : Bool := ((runtime.routingRules.lookup collection).map (·.disabled)).getD false

/-- `routing_rules.get(collection, {})` -/
def storedPolicy : RoutingRules Doc :=
  ((runtime.routingRules.lookup collection).map (·.policy)).getD .unset

/-- The rollouts of a collection. -/
def rolloutsOf : List (RolloutRecord Doc) :=
  runtime.routingRollouts.filter fun record => record.plan.collection = collection

/-- `_rollout_for_collection` -/
def rolloutForCollection : Option (RolloutRecord Doc) :=
  let rollouts := runtime.rolloutsOf collection
  let active := rollouts.filter fun record => ¬record.rollout.phase.IsTerminal
  RolloutRecord.newest (if active.isEmpty then rollouts else active)

/-- `_routing_policies` -/
def routingPolicies (access : Access) : List (RoutingRules Doc) :=
  if runtime.isDisabled collection then []
  else
    match runtime.rolloutForCollection collection with
    | none => [runtime.storedPolicy collection]
    | some record => record.policies access

/-- The names that `_cluster_names_for_search` tries for one policy. -/
def searchNames (policy : RoutingRules Doc) : List ClusterName :=
  if policy.rules.isEmpty ∧ (runtime.rolloutForCollection collection).isNone then
    runtime.federation.clients
  else policy.clusterNames

/-- `_cluster_names_for_search` -/
def clusterNamesForSearch : List ClusterName :=
  uniqueTargets ((runtime.routingPolicies collection .read).flatMap fun policy =>
    (runtime.searchNames collection policy).filterMap runtime.federation.searchCluster)

/-- `get_indexing_route` -/
def getIndexingRoute (document : Doc) : List ClusterName × ℕ × Option String :=
  (runtime.federation.indexingTargets (runtime.routingPolicies collection .write) document,
    runtime.revision,
    (runtime.rolloutForCollection collection).map fun record => record.plan.rolloutId)

/-- `get_delete_route` -/
def getDeleteRoute : List ClusterName × ℕ × Option String :=
  if runtime.isDisabled collection then ([], runtime.revision, none)
  else (runtime.federation.deleteTargets, runtime.revision,
    (runtime.rolloutForCollection collection).map fun record => record.plan.rolloutId)

theorem getIndexingRoute_nodup (document : Doc) :
    (runtime.getIndexingRoute collection document).1.Nodup := uniqueTargets_nodup _

theorem getDeleteRoute_nodup : (runtime.getDeleteRoute collection).1.Nodup := by
  unfold getDeleteRoute
  split
  · exact List.nodup_nil
  · exact runtime.federation.clients_nodup

variable {runtime collection}

theorem rolloutForCollection_mem {record : RolloutRecord Doc}
    (governs : runtime.rolloutForCollection collection = some record) :
    record ∈ runtime.routingRollouts ∧ record.plan.collection = collection := by
  have member : record ∈ runtime.rolloutsOf collection := by
    have found := RolloutRecord.newest_mem governs
    split_ifs at found
    · exact found
    · exact List.mem_of_mem_filter found
  simpa [rolloutsOf] using member

theorem rolloutForCollection_eq_none :
    runtime.rolloutForCollection collection = none ↔ runtime.rolloutsOf collection = [] := by
  unfold rolloutForCollection
  rw [RolloutRecord.newest_eq_none]
  split_ifs with idle
  · exact Iff.rfl
  · constructor
    · intro none
      exact absurd (List.isEmpty_iff.mpr none) idle
    · intro none
      rw [none]
      rfl

/-- **The only rollout that is not over governs.** -/
theorem rolloutForCollection_of_active {record : RolloutRecord Doc}
    (member : record ∈ runtime.rolloutsOf collection)
    (ongoing : ¬record.rollout.phase.IsTerminal)
    (only : ∀ other ∈ runtime.rolloutsOf collection, ¬other.rollout.phase.IsTerminal →
      other = record) :
    runtime.rolloutForCollection collection = some record := by
  have active : record ∈ (runtime.rolloutsOf collection).filter fun record =>
      ¬record.rollout.phase.IsTerminal := List.mem_filter.mpr ⟨member, by simpa using ongoing⟩
  unfold rolloutForCollection
  simp only
  rw [if_neg (by simpa using List.ne_nil_of_mem active)]
  refine RolloutRecord.newest_eq active fun other here differs => ?_
  obtain ⟨stored, still⟩ := List.mem_filter.mp here
  exact absurd (only other stored (by simpa using still)) differs

/-- Once all rollouts are over, the last one updated governs. -/
theorem rolloutForCollection_of_over {record : RolloutRecord Doc}
    (member : record ∈ runtime.rolloutsOf collection)
    (terminal : ∀ other ∈ runtime.rolloutsOf collection, other.rollout.phase.IsTerminal)
    (last : ∀ other ∈ runtime.rolloutsOf collection, other ≠ record →
      other.updatedAt < record.updatedAt) :
    runtime.rolloutForCollection collection = some record := by
  unfold rolloutForCollection
  simp only
  rw [if_pos]
  · exact RolloutRecord.newest_eq member last
  · simp only [List.isEmpty_iff, List.filter_eq_nil_iff, decide_not, Bool.not_eq_true',
      decide_eq_false_iff_not, not_not]
    exact terminal

/-- A rollout that is over governs only when all are. -/
theorem over_of_rolloutForCollection {record : RolloutRecord Doc}
    (governs : runtime.rolloutForCollection collection = some record)
    (terminal : record.rollout.phase.IsTerminal) :
    ∀ other ∈ runtime.rolloutsOf collection, other.rollout.phase.IsTerminal := by
  by_contra ongoing
  push Not at ongoing
  obtain ⟨other, stored, still⟩ := ongoing
  have active : other ∈ (runtime.rolloutsOf collection).filter fun record =>
      ¬record.rollout.phase.IsTerminal := List.mem_filter.mpr ⟨stored, by simpa using still⟩
  unfold rolloutForCollection at governs
  simp only at governs
  rw [if_neg (by simpa using List.ne_nil_of_mem active)] at governs
  have found := (List.mem_filter.mp (RolloutRecord.newest_mem governs)).2
  simp [terminal] at found

theorem mem_clusterNamesForSearch {cluster : ClusterName} :
    cluster ∈ runtime.clusterNamesForSearch collection ↔
      ∃ policy ∈ runtime.routingPolicies collection .read,
        ∃ name ∈ runtime.searchNames collection policy,
          runtime.federation.searchCluster name = some cluster := by
  simp [clusterNamesForSearch]

end RoutingRuntime

end ImposbroSearch.Routing
