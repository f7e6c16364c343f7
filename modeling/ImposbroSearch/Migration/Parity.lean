import ImposbroSearch.Migration.Backfill

/-!
# Parity of a migration

Parity compares two unions: what the clusters of the active policy hold, and what the
clusters of the candidate policy hold. It is logical. That a document is on some cluster of
the candidate policy follows from it, and that no copy differs; that each cluster it is
routed to has its copy does not.
-/

namespace ImposbroSearch.Migration

open ImposbroSearch.Foundation ImposbroSearch.Indexing ImposbroSearch.Routing

variable {Doc : Type} [DecidableEq Doc]

/-- `verify_parity` -/
def verifyParity (federation : FederationService) (plan : RolloutPlan Doc) (phase : RolloutPhase)
    (copies : Copies Doc) (ids : List String) (digest : List (String × Doc) → String)
    (sampleLimit : ℤ) : Except String ParityReport :=
  if phase ≠ .backfill ∧ phase ≠ .verifying then
    .error "Parity verification requires backfill or verifying phase"
  else if sampleLimit < 1 ∨ 1000 < sampleLimit then
    .error "sample_limit must be between 1 and 1000"
  else
    match exportPolicyUnion copies ids federation plan.activePolicy with
    | .error message => .error message
    | .ok source =>
      match exportPolicyUnion copies ids federation plan.candidatePolicy with
      | .error message => .error message
      | .ok candidate => .ok (compareExports digest ids source candidate)

variable {federation : FederationService} {policy : RoutingRules Doc} {plan : RolloutPlan Doc}
  {phase : RolloutPhase} {copies : Copies Doc} {ids : List String}
  {digest : List (String × Doc) → String} {sampleLimit : ℤ}

/-! ## Where an exported document is from -/

/-- Every document of an export is a copy on one of its clusters. -/
theorem exportClusters_origin {documents result : String → Option (Doc × ClusterName)}
    {clusters : List ClusterName}
    (exported : exportClusters copies ids documents clusters = .ok result) {documentId : String}
    {document : Doc} (found : (result documentId).map Prod.fst = some document) :
    (documents documentId).map Prod.fst = some document ∨
      ∃ cluster ∈ clusters, copies cluster documentId = some document := by
  induction clusters generalizing documents with
  | nil =>
      cases exported
      exact Or.inl found
  | cons cluster clusters ih =>
      unfold exportClusters at exported
      split at exported
      · cases exported
      next merged step =>
        unfold mergeExport at step
        split at step
        · cases step
        · cases step
          rcases ih exported with known | ⟨other, later, copied⟩
          · cases copied : copies cluster documentId with
            | none =>
                rw [copied] at known
                exact Or.inl known
            | some copy =>
                rw [copied] at known
                exact Or.inr ⟨cluster, List.mem_cons_self, copied.trans known⟩
          · exact Or.inr ⟨other, List.mem_cons_of_mem _ later, copied⟩

/-- **An exported union**, exactly: the copies on the clusters of its policy. -/
theorem exportPolicyUnion_iff {source : String → Option Doc}
    (exported : exportPolicyUnion copies ids federation policy = .ok source) :
    ∃ clusters, policyClusters federation policy = .ok clusters ∧
      ∀ documentId ∈ ids, ∀ document, source documentId = some document ↔
        ∃ cluster ∈ clusters, copies cluster documentId = some document := by
  obtain ⟨clusters, resolved, shows⟩ := exportPolicyUnion_ok exported
  refine ⟨clusters, resolved, fun documentId member document => ⟨fun found => ?_, ?_⟩⟩
  · unfold exportPolicyUnion at exported
    rw [resolved] at exported
    simp only at exported
    split at exported
    · cases exported
    next documents merged =>
      cases exported
      rcases exportClusters_origin merged found with nothing | held
      · cases nothing
      · exact held
  · rintro ⟨cluster, here, copied⟩
    exact shows documentId member cluster here document copied

theorem verifyParity_passed {report : ParityReport}
    (verified : verifyParity federation plan phase copies ids digest sampleLimit = .ok report)
    (passed : report.passed = true) : ∃ source candidate,
      exportPolicyUnion copies ids federation plan.activePolicy = .ok source ∧
      exportPolicyUnion copies ids federation plan.candidatePolicy = .ok candidate ∧
      ∀ documentId ∈ ids, source documentId = candidate documentId := by
  unfold verifyParity at verified
  split at verified
  · cases verified
  · split at verified
    · cases verified
    · split at verified
      · cases verified
      next source exported =>
        split at verified
        · cases verified
        next candidate exported' =>
          cases verified
          unfold compareExports at passed
          simp only [Bool.and_eq_true, List.all_eq_true, decide_eq_true_eq] at passed
          exact ⟨source, candidate, exported, exported', passed.1⟩

/-! ## What parity shows -/

/-- **Parity is logical.** Each document of the active clusters is on a cluster of the
candidate policy and the other way round, and no cluster that it is routed to holds another
copy. A target may hold none, unless the candidate policy has one cluster only. -/
theorem parity_is_logical {report : ParityReport}
    (verified : verifyParity federation plan phase copies ids digest sampleLimit = .ok report)
    (passed : report.passed = true) : ∃ active candidate,
      policyClusters federation plan.activePolicy = .ok active ∧
      policyClusters federation plan.candidatePolicy = .ok candidate ∧
      ∀ documentId ∈ ids, ∀ document,
        ((∃ cluster ∈ active, copies cluster documentId = some document) ↔
          ∃ cluster ∈ candidate, copies cluster documentId = some document) ∧
        ((∃ cluster ∈ active, copies cluster documentId = some document) →
          ∀ target ∈ federation.targetsForPolicyDocument plan.candidatePolicy document,
            (copies target documentId = none ∨ copies target documentId = some document) ∧
              (candidate.length = 1 → copies target documentId = some document)) := by
  obtain ⟨source, candidate, exported, exported', same⟩ := verifyParity_passed verified passed
  obtain ⟨activeClusters, resolved, fromActive⟩ := exportPolicyUnion_iff exported
  obtain ⟨candidateClusters, resolved', fromCandidate⟩ := exportPolicyUnion_iff exported'
  refine ⟨activeClusters, candidateClusters, resolved, resolved',
    fun documentId member document => ?_⟩
  have union : (∃ cluster ∈ activeClusters, copies cluster documentId = some document) ↔
      ∃ cluster ∈ candidateClusters, copies cluster documentId = some document := by
    rw [← fromActive documentId member, same documentId member, fromCandidate documentId member]
  refine ⟨union, fun held target routed => ?_⟩
  have listed := targets_subset_policyClusters resolved' routed
  have shown := (fromCandidate documentId member document).mpr (union.mp held)
  constructor
  · cases copied : copies target documentId with
    | none => exact Or.inl rfl
    | some copy =>
        right
        rw [← (fromCandidate documentId member copy).mpr ⟨target, listed, copied⟩, shown]
  · intro single
    obtain ⟨only, rfl⟩ := List.length_eq_one_iff.mp single
    obtain ⟨holder, here, copied⟩ := union.mp held
    rw [List.mem_singleton.mp listed, ← List.mem_singleton.mp here]
    exact copied

/-! ## A copy that is missing -/

/-- Documents move from cluster `a` to both clusters. -/
def fanOutPlan : RolloutPlan ℕ where
  rolloutId := "r1"
  collection := "products"
  activePolicy := { rules := [], defaultCluster := "a" }
  candidatePolicy :=
    { rules := [{ target := .clusters ["a", "b"], priority := none, isMatch := fun _ => true }]
      defaultCluster := "a" }
  rollbackWindowSeconds := 3600

/-- Nothing was copied yet. -/
def uncopied : Copies ℕ := fun cluster documentId =>
  if cluster = "a" ∧ documentId = "d1" then some 7 else none

theorem uncopied_parity :
    verifyParity ⟨["a", "b"], by decide, by decide⟩ fanOutPlan .verifying uncopied ["d1"]
      (fun _ => "") 100 = .ok ⟨true, "sha256:"⟩ := by decide +kernel

/-- The copy on cluster `b` is missing, and parity passes. -/
theorem parity_hides_missing_copy :
    ¬∀ (federation : FederationService) (plan : RolloutPlan ℕ) (copies : Copies ℕ)
      (ids : List String) (report : ParityReport),
      verifyParity federation plan .verifying copies ids (fun _ => "") 100 = .ok report →
        report.passed = true → ∀ active, policyClusters federation plan.activePolicy = .ok active →
          ∀ documentId ∈ ids, ∀ cluster ∈ active, ∀ document,
            copies cluster documentId = some document →
              ∀ target ∈ federation.targetsForPolicyDocument plan.candidatePolicy document,
                copies target documentId = some document := by
  intro placed
  have copied := placed ⟨["a", "b"], by decide, by decide⟩ fanOutPlan uncopied ["d1"] _
    uncopied_parity rfl ["a"] (by decide +kernel) "d1" (by decide) "a" (by decide) 7 (by decide) "b"
    (by decide +kernel)
  exact absurd copied (by decide)

theorem uncopied_is_logical : ∃ active candidate,
    policyClusters ⟨["a", "b"], by decide, by decide⟩ fanOutPlan.activePolicy = .ok active ∧
      policyClusters ⟨["a", "b"], by decide, by decide⟩ fanOutPlan.candidatePolicy = .ok candidate ∧
      ((∃ cluster ∈ active, uncopied cluster "d1" = some 7) ↔
        ∃ cluster ∈ candidate, uncopied cluster "d1" = some 7) := by
  obtain ⟨active, candidate, resolved, resolved', logical⟩ :=
    parity_is_logical uncopied_parity rfl
  exact ⟨active, candidate, resolved, resolved', (logical "d1" (by decide) 7).1⟩

end ImposbroSearch.Migration
