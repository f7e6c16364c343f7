import ImposbroSearch.Routing.Governance

/-!
# Which operations leave a cluster reference dangling?

Clusters are named in two places: by the stored policies, and by the policies of the
rollouts that govern a collection. Removing a cluster looks at the first place only.
Enabling a collection again brings back the rollout that governed it before, whose
clusters may have been removed in the meantime. And the name `default` stands for a
registered cluster only while there is one.
-/

namespace ImposbroSearch.Routing

open ImposbroSearch.Foundation
open ImposbroSearch.Indexing (ClusterName)

variable {Doc : Type}

namespace FederationService

/-- Every cluster a policy names is registered, `default` by the default cluster. -/
def Resolves (federation : FederationService) (policy : RoutingRules Doc) : Prop :=
  ∀ name ∈ policy.clusterNames, ∃ cluster, federation.resolveClusterName name = some cluster

variable {federation : FederationService} {policy : RoutingRules Doc} {name : ClusterName}

/-- A name resolves when it is `default` or registered, and there is a cluster at all. -/
theorem exists_resolveClusterName_iff :
    (∃ cluster, federation.resolveClusterName name = some cluster) ↔
      federation.clients ≠ [] ∧ (name = "default" ∨ name ∈ federation.clients) := by
  constructor
  · rintro ⟨cluster, resolved⟩
    refine ⟨List.ne_nil_of_mem (resolveClusterName_mem resolved), ?_⟩
    unfold resolveClusterName at resolved
    split_ifs at resolved with virtual registered
    · exact Or.inl virtual
    · exact Or.inr registered
  · rintro ⟨available, registered⟩
    exact exists_resolveClusterName available registered

theorem available_of_resolves (resolves : federation.Resolves policy) :
    federation.clients ≠ [] := by
  have named : policy.defaultCluster ∈ policy.clusterNames :=
    List.mem_append_right _ List.mem_cons_self
  exact (exists_resolveClusterName_iff.mp (resolves _ named)).1

theorem resolves_unset : federation.Resolves (.unset : RoutingRules Doc) ↔
    federation.clients ≠ [] := by
  refine ⟨available_of_resolves, fun available name named => ?_⟩
  have virtual : name = "default" := by
    simpa [RoutingRules.clusterNames, RoutingRules.unset] using named
  exact exists_resolveClusterName available (Or.inl virtual)

/-- **`validate_routing_policy`** accepts what resolves, as soon as there is a cluster. -/
theorem resolves_of_missingClusters (valid : federation.missingClusters policy = []) :
    federation.Resolves policy ↔ federation.clients ≠ [] := by
  refine ⟨available_of_resolves, fun available name named => ?_⟩
  unfold missingClusters at valid
  simp only [List.filter_eq_nil_iff, decide_eq_true_eq, not_not] at valid
  refine exists_resolveClusterName available ?_
  rcases List.mem_append.mp named with inRule | isDefault
  · obtain ⟨rule, member, target⟩ := List.mem_flatMap.mp inRule
    have found := valid ((federation.resolveClusterName name).getD name)
      (List.mem_append_left _ (List.mem_flatMap.mpr ⟨rule, member,
        List.mem_map_of_mem (f := fun name => (federation.resolveClusterName name).getD name)
          target⟩))
    cases resolved : federation.resolveClusterName name with
    | some cluster => exact (exists_resolveClusterName_iff.mp ⟨cluster, resolved⟩).2
    | none =>
        rw [resolved] at found
        exact Or.inr found
  · obtain rfl := List.mem_singleton.mp isDefault
    by_cases virtual : policy.defaultCluster = "default"
    · exact Or.inl virtual
    · exact Or.inr (valid _ (List.mem_append_right _ (by simp [virtual])))

/-- Registering a cluster keeps every reference. -/
theorem Resolves.register (resolves : federation.Resolves policy)
    (fresh : name ∉ federation.clients) (named : name ≠ "") :
    (federation.register name fresh named).Resolves policy := by
  intro other mentioned
  refine exists_resolveClusterName_iff.mpr ⟨by simp [FederationService.register], ?_⟩
  rcases (exists_resolveClusterName_iff.mp (resolves other mentioned)).2 with virtual | registered
  · exact Or.inl virtual
  · exact Or.inr (List.mem_append_left _ registered)

/-- **Removing a cluster** keeps the references of a policy exactly when the policy
does not name it and it is not the last one. -/
theorem resolves_unregister (resolves : federation.Resolves policy) (real : name ≠ "default")
    (registered : name ∈ federation.clients) :
    (federation.unregister name).Resolves policy ↔
      name ∉ policy.clusterNames ∧ federation.clients ≠ [name] := by
  have erased : ∀ other, other ∈ (federation.unregister name).clients ↔
      other ≠ name ∧ other ∈ federation.clients := fun other =>
    federation.clients_nodup.mem_erase_iff
  have last : (federation.unregister name).clients ≠ [] ↔ federation.clients ≠ [name] := by
    rw [not_iff_not]
    constructor
    · intro empty
      have alone : ∀ other ∈ federation.clients, other = name := by
        intro other member
        by_contra differs
        have left := (erased other).mpr ⟨differs, member⟩
        rw [empty] at left
        cases left
      exact List.perm_singleton.mp ((List.perm_ext_iff_of_nodup federation.clients_nodup
        (List.nodup_singleton name)).mpr fun other =>
          ⟨fun member => List.mem_singleton.mpr (alone other member),
            fun same => List.mem_singleton.mp same ▸ registered⟩)
    · intro alone
      show federation.clients.erase name = []
      simp [alone]
  constructor
  · intro kept
    refine ⟨fun named => ?_, last.mp (available_of_resolves kept)⟩
    rcases (exists_resolveClusterName_iff.mp (kept name named)).2 with virtual | member
    · exact real virtual
    · exact ((erased name).mp member).1 rfl
  · rintro ⟨unnamed, others⟩ other mentioned
    refine exists_resolveClusterName_iff.mpr ⟨last.mpr others, ?_⟩
    rcases (exists_resolveClusterName_iff.mp (resolves other mentioned)).2 with virtual | member
    · exact Or.inl virtual
    · exact Or.inr ((erased other).mpr ⟨fun same => unnamed (same ▸ mentioned), member⟩)

end FederationService

namespace RoutingRuntime

/-- The stored policies, and the policies of the rollouts that govern a live collection. -/
def NamesPolicy (runtime : RoutingRuntime Doc) (policy : RoutingRules Doc) : Prop :=
  (∃ collection entry, runtime.routingRules.lookup collection = some entry ∧
    policy = entry.policy) ∨
  ∃ collection record, runtime.isDisabled collection = false ∧
    runtime.rolloutForCollection collection = some record ∧
    (policy = record.plan.activePolicy ∨ policy = record.plan.candidatePolicy)

/-- No policy in use names a cluster that is not registered. -/
def NoDanglingReference (runtime : RoutingRuntime Doc) : Prop :=
  ∀ policy, runtime.NamesPolicy policy → runtime.federation.Resolves policy

/-- The rollout that governs the collection, if any, names registered clusters only. -/
def PastResolves (runtime : RoutingRuntime Doc) (collection : String) : Prop :=
  ∀ record, runtime.rolloutForCollection collection = some record →
    runtime.federation.Resolves record.plan.activePolicy ∧
      runtime.federation.Resolves record.plan.candidatePolicy

/-- The cluster an operation removes is named by no policy in use; there is a cluster
for the policy it brings into use; and if it may enable the collection again, the
rollout that governed it names registered clusters. -/
def KeepsReferences (settings : AdminSettings) (runtime : RoutingRuntime Doc) :
    AdminOperation Doc → Prop
  | .unregisterCluster name =>
    runtime.unregisterRefusal name = none → ∀ policy, runtime.NamesPolicy policy →
      name ∉ policy.clusterNames ∧ runtime.federation.clients ≠ [name]
  | .createCollection collection =>
    runtime.Unrouted collection →
      runtime.federation.clients ≠ [] ∧ runtime.PastResolves collection
  | .deleteCollection collection =>
    runtime.activeRollout collection = none → runtime.isDisabled collection = false →
      runtime.federation.clients ≠ []
  | .setRoutingRules collection policy =>
    runtime.rulesRefusal settings policy = none →
      runtime.federation.clients ≠ [] ∧ runtime.PastResolves collection
  | .deleteRoutingRules collection =>
    settings.enterprise = false →
      runtime.federation.clients ≠ [] ∧ runtime.PastResolves collection
  | .createRollout collection candidate _ rolloutId =>
    runtime.draftRefusal collection candidate = none →
      rolloutId ∉ runtime.routingRollouts.map (·.plan.rolloutId) →
        runtime.federation.clients ≠ []
  | _ => True

/-- An action keeps the references at the time it is performed. -/
def KeepsReferencesAt (settings : AdminSettings) (runtime : RoutingRuntime Doc)
    (action : ℕ × AdminOperation Doc) : Prop :=
  (runtime.tick action.1).KeepsReferences settings action.2

variable {runtime updated : RoutingRuntime Doc} {collection : String} {settings : AdminSettings}

/-- A new entry keeps the references if its policy resolves, and if it enables the
collection, the governing rollout resolves too. -/
theorem noDangling_withEntry (sound : runtime.NoDanglingReference) (entry : RoutingEntry Doc) :
    (runtime.withEntry collection entry).NoDanglingReference ↔
      runtime.federation.Resolves entry.policy ∧
        (entry.disabled = false → runtime.PastResolves collection) := by
  constructor
  · intro kept
    refine ⟨kept _ (Or.inl ⟨collection, entry, by simp [withEntry], rfl⟩), ?_⟩
    intro live record governs
    have enabled : (runtime.withEntry collection entry).isDisabled collection = false := by
      rw [isDisabled_withEntry, if_pos rfl, live]
    exact ⟨kept _ (Or.inr ⟨collection, record, enabled, governs, Or.inl rfl⟩),
      kept _ (Or.inr ⟨collection, record, enabled, governs, Or.inr rfl⟩)⟩
  · rintro ⟨resolves, past⟩ policy (⟨other, held, stored, rfl⟩ | ⟨other, record, enabled, governs, named⟩)
    · unfold withEntry at stored
      rw [lookup_setEntry] at stored
      split_ifs at stored
      · obtain rfl := Option.some.inj stored
        exact resolves
      · exact sound _ (Or.inl ⟨other, held, stored, rfl⟩)
    · rw [isDisabled_withEntry] at enabled
      rw [rolloutForCollection_withEntry] at governs
      split_ifs at enabled with same
      · subst same
        rcases named with rfl | rfl
        · exact (past enabled record governs).1
        · exact (past enabled record governs).2
      · exact sound _ (Or.inr ⟨other, record, enabled, governs, named⟩)

/-- An operation on a rollout changes no policy in use, except to store a candidate
that was already one. -/
theorem noDangling_withRollout {record : RolloutRecord Doc} {rollout : RoutingRollout}
    (consistent : runtime.Consistent)
    (older : ∀ held ∈ runtime.routingRollouts, held.updatedAt < runtime.now)
    (sound : runtime.NoDanglingReference) (stored : record ∈ runtime.routingRollouts)
    (ongoing : ¬record.rollout.phase.IsTerminal) :
    (runtime.withRollout record rollout).NoDanglingReference := by
  have governing := consistent.governs stored ongoing
  have enabled := consistent.enabled record stored ongoing
  have candidate : runtime.federation.Resolves record.plan.candidatePolicy :=
    sound _ (Or.inr ⟨_, record, enabled, governing, Or.inr rfl⟩)
  rintro policy (⟨other, held, found, rfl⟩ | ⟨other, held, live, governs, named⟩)
  · show runtime.federation.Resolves held.policy
    unfold withRollout at found
    simp only at found
    split_ifs at found
    · rw [lookup_setEntry] at found
      split_ifs at found
      · obtain rfl := Option.some.inj found
        exact candidate
      · exact sound _ (Or.inl ⟨other, held, found, rfl⟩)
    · exact sound _ (Or.inl ⟨other, held, found, rfl⟩)
  · show runtime.federation.Resolves policy
    rw [consistent.rolloutForCollection_withRollout older stored ongoing] at governs
    split_ifs at governs with same
    · obtain rfl := Option.some.inj governs
      rw [revised_plan] at named
      exact sound _ (Or.inr ⟨_, record, enabled, governing, named⟩)
    · have before : runtime.isDisabled other = false := by
        rw [isDisabled_withRollout, if_neg fun both => same both.2] at live
        exact live
      exact sound _ (Or.inr ⟨other, held, before, governs, named⟩)

/-- A draft keeps the references if there is a cluster: its active policy is the
stored one, and its candidate was validated. -/
theorem noDangling_createRollout {candidate : RoutingRules Doc} {window : ℕ} {rolloutId : String}
    (sound : runtime.NoDanglingReference)
    (done : runtime.createRollout collection candidate window rolloutId = .ok updated) :
    updated.NoDanglingReference ↔ runtime.federation.clients ≠ [] := by
  obtain ⟨accepted, -, federation, rules, -, -⟩ := createRollout_ok done
  obtain ⟨enabled, -, valid⟩ := draftRefusal_none accepted
  have same_disabled : ∀ other, updated.isDisabled other = runtime.isDisabled other := by
    intro other
    unfold isDisabled
    rw [rules]
  unfold NoDanglingReference
  rw [federation]
  constructor
  · intro kept
    have governs := (rolloutForCollection_draft done collection).trans (if_pos rfl)
    exact FederationService.available_of_resolves (kept candidate
      (Or.inr ⟨collection, _, (same_disabled collection).trans enabled, governs, Or.inr rfl⟩))
  · rintro available policy (⟨other, held, found, rfl⟩ | ⟨other, record, live, governs, named⟩)
    · rw [rules] at found
      exact sound _ (Or.inl ⟨other, held, found, rfl⟩)
    · rw [rolloutForCollection_draft done] at governs
      split_ifs at governs with same
      · obtain rfl := Option.some.inj governs
        rcases named with rfl | rfl
        · show runtime.federation.Resolves (runtime.storedPolicy collection)
          unfold storedPolicy
          cases found : runtime.routingRules.lookup collection with
          | none => exact FederationService.resolves_unset.mpr available
          | some entry => exact sound _ (Or.inl ⟨collection, entry, found, rfl⟩)
        · exact (FederationService.resolves_of_missingClusters valid).mpr available
      · exact sound _ (Or.inr ⟨other, record, (same_disabled other).symm.trans live, governs,
          named⟩)

theorem unregisterRefusal_none {name : ClusterName}
    (accepted : runtime.unregisterRefusal name = none) :
    name ≠ "default" ∧ name ∈ runtime.federation.clients := by
  unfold unregisterRefusal at accepted
  split at accepted
  · cases accepted
  next real =>
    split at accepted
    · cases accepted
    next registered => exact ⟨real, not_not.mp registered⟩

theorem rulesRefusal_none {policy : RoutingRules Doc}
    (accepted : runtime.rulesRefusal settings policy = none) :
    runtime.federation.missingClusters policy = [] := by
  unfold rulesRefusal at accepted
  split at accepted
  · cases accepted
  · split at accepted
    · cases accepted
    next valid => exact not_not.mp valid

/-- **One accepted operation** leaves no reference dangling exactly when it keeps them. -/
theorem noDangling_perform (consistent : runtime.Consistent)
    (older : ∀ held ∈ runtime.routingRollouts, held.updatedAt < runtime.now)
    (sound : runtime.NoDanglingReference) {operation : AdminOperation Doc}
    (done : runtime.perform settings operation = .ok updated) :
    updated.NoDanglingReference ↔ runtime.KeepsReferences settings operation := by
  cases performed_of_ok done with
  | registerCluster named fresh =>
      exact iff_of_true (fun policy used => (sound policy used).register fresh named) trivial
  | unregisterCluster accepted =>
      obtain ⟨real, registered⟩ := unregisterRefusal_none accepted
      constructor
      · intro kept _ policy used
        exact (FederationService.resolves_unregister (sound policy used) real registered).mp
          (kept policy used)
      · intro unused policy used
        exact (FederationService.resolves_unregister (sound policy used) real registered).mpr
          (unused accepted policy used)
  | createCollection unrouted =>
      rw [noDangling_withEntry sound]
      have reset : runtime.federation.Resolves (RoutingEntry.reset : RoutingEntry Doc).policy ↔
          runtime.federation.clients ≠ [] := FederationService.resolves_unset
      rw [reset]
      exact ⟨fun kept _ => ⟨kept.1, kept.2 rfl⟩,
        fun kept => ⟨(kept unrouted).1, fun _ => (kept unrouted).2⟩⟩
  | keepCollection routed => exact iff_of_true sound fun unrouted => absurd unrouted routed
  | deleteCollection idle enabled =>
      rw [noDangling_withEntry sound]
      refine Iff.trans (and_iff_left (by simp)) ?_
      rw [FederationService.resolves_unset]
      exact ⟨fun available _ _ => available, fun available => available idle enabled⟩
  | keepTombstone idle disabled =>
      refine iff_of_true sound fun _ enabled => ?_
      exact absurd (disabled.symm.trans enabled) (by simp)
  | setRoutingRules accepted =>
      rw [noDangling_withEntry sound,
        FederationService.resolves_of_missingClusters (rulesRefusal_none accepted)]
      exact ⟨fun kept _ => ⟨kept.1, kept.2 rfl⟩,
        fun kept => ⟨(kept accepted).1, fun _ => (kept accepted).2⟩⟩
  | deleteRoutingRules open_ =>
      rw [noDangling_withEntry sound]
      have reset : runtime.federation.Resolves (RoutingEntry.reset : RoutingEntry Doc).policy ↔
          runtime.federation.clients ≠ [] := FederationService.resolves_unset
      rw [reset]
      exact ⟨fun kept _ => ⟨kept.1, kept.2 rfl⟩,
        fun kept => ⟨(kept open_).1, fun _ => (kept open_).2⟩⟩
  | createRollout done =>
      obtain ⟨accepted, fresh, -⟩ := createRollout_ok done
      rw [noDangling_createRollout sound done]
      exact ⟨fun available _ _ => available, fun available => available accepted fresh⟩
  | rollout found performed =>
      exact iff_of_true (noDangling_withRollout consistent older sound (rolloutById_some found).1
        (RoutingRollout.ongoing_of_perform performed)) trivial

/-- A refused operation keeps the references. -/
theorem keepsReferences_of_refused {operation : AdminOperation Doc} {error : AdminError}
    (refused : runtime.perform settings operation = .error error) :
    runtime.KeepsReferences settings operation := by
  cases operation with
  | registerCluster name => trivial
  | unregisterCluster name =>
      intro accepted
      unfold RoutingRuntime.perform unregisterCluster at refused
      simp only [accepted] at refused
      cases refused
  | createCollection collection =>
      unfold RoutingRuntime.perform createCollection at refused
      simp only at refused
      split_ifs at refused
  | deleteCollection collection =>
      intro idle enabled
      unfold RoutingRuntime.perform deleteCollection at refused
      simp [idle, enabled] at refused
  | setRoutingRules collection policy =>
      intro accepted
      unfold RoutingRuntime.perform setRoutingRules at refused
      simp only [accepted] at refused
      cases refused
  | deleteRoutingRules collection =>
      intro open_
      unfold RoutingRuntime.perform deleteRoutingRules at refused
      simp [open_] at refused
  | createRollout collection candidate window rolloutId =>
      intro accepted fresh
      unfold RoutingRuntime.perform createRollout at refused
      simp only [accepted] at refused
      rw [dif_neg fresh] at refused
      cases refused
  | rollout rolloutId operation => trivial

theorem noDangling_step (consistent : runtime.Consistent) (sound : runtime.NoDanglingReference)
    (action : ℕ × AdminOperation Doc) :
    (runtime.step settings action).NoDanglingReference ↔
      runtime.KeepsReferencesAt settings action := by
  unfold RoutingRuntime.step KeepsReferencesAt
  split
  next error refused => exact iff_of_true sound (keepsReferences_of_refused refused)
  next updated done =>
    exact noDangling_perform (consistent.tick action.1) (consistent.older_tick action.1) sound done

/-- **No dangling cluster reference** throughout a sequence of admin operations exactly
when each operation of the sequence keeps the references. -/
theorem no_dangling_reference (settings : AdminSettings) (federation : FederationService)
    (actions : List (ℕ × AdminOperation Doc)) :
    Along (step settings)
        (fun runtime action => (runtime.step settings action).NoDanglingReference)
        (initial federation) actions ↔
      Along (step settings) (KeepsReferencesAt settings) (initial federation) actions := by
  refine along_iff_of_invariant
    (I := fun runtime => runtime.Consistent ∧ runtime.NoDanglingReference) ?_ ?_ ?_
  · rintro runtime action ⟨consistent, sound⟩
    exact noDangling_step consistent sound action
  · rintro runtime action ⟨consistent, sound⟩ keeps
    exact ⟨consistent.step settings action, (noDangling_step consistent sound action).mpr keeps⟩
  · refine ⟨Consistent.initial federation, ?_⟩
    rintro policy (⟨collection, entry, found, -⟩ | ⟨collection, record, -, governs, -⟩)
    · simp [initial] at found
    · exact absurd (rolloutForCollection_mem governs).1 (by simp [initial])

/-- The candidate's cluster is removed while its rollout is in `dual_write`. -/
def removalDuringRollout : List (ℕ × AdminOperation String) :=
  [(0, .createCollection "books"),
    (0, .createRollout "books" { rules := [], defaultCluster := "new" } 900 "r1"),
    (0, .rollout "r1" (.transition .validating 1 none ⟨0, 0, 0⟩)),
    (0, .rollout "r1" (.transition .dualWrite 2
      (some { validationPassed := true, capacityPassed := true }) ⟨0, 0, 0⟩)),
    (0, .unregisterCluster "new")]

/-- The rollout governs the collection, and its candidate names no registered cluster. -/
theorem candidate_cluster_removed :
    ∃ runtime : RoutingRuntime String,
      run (step { enterprise := true, maxKafkaLag := 0 })
        (initial { clients := ["default", "new"] }) removalDuringRollout = runtime ∧
      runtime.federation.clients = ["default"] ∧
      (∃ record, runtime.rolloutForCollection "books" = some record ∧
        record.rollout.phase = .dualWrite ∧
        record.plan.candidatePolicy.clusterNames = ["new"]) ∧
      ¬runtime.NoDanglingReference := by
  refine ⟨_, rfl, by decide, ⟨_, rfl, by decide, by decide⟩, ?_⟩
  intro sound
  have resolves := sound _ (Or.inr ⟨"books", _, rfl, rfl, Or.inr rfl⟩) "new" (by decide)
  rw [FederationService.exists_resolveClusterName_iff] at resolves
  exact absurd resolves.2 (by decide)

end RoutingRuntime

end ImposbroSearch.Routing
