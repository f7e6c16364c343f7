import ImposbroSearch.Foundation.Runs
import ImposbroSearch.Migration.Parity
import ImposbroSearch.Routing.ClusterReferences

/-!
# The coverage of a backfill

A backfill is a row of calls of `run_step`, each with the checkpoint of the last one that
was saved. A call whose imports do not all succeed, or that is lost before its checkpoint is
saved, may have applied any part of its documents, and is made again. An import may add
copies to the clusters that the next call exports: they are copies of what is there, so the
union that is paged through stays as it was.
-/

namespace ImposbroSearch.Migration

open ImposbroSearch.Foundation ImposbroSearch.Indexing ImposbroSearch.Routing

variable {Doc : Type}

/-! ## Calls -/

/-- The copies of a collection. -/
def copiesOf (storage : Storage Doc) (collection : String) : Copies Doc :=
  fun cluster documentId => storage.documents cluster ⟨collection, documentId⟩

/-- What becomes of the imports of a call: they all return without failed items and the
checkpoint is saved, or some of their documents are applied and it is not. -/
inductive StepFate where
  | saved
  | failed (applied : ClusterName → String → Bool)

structure StepCall where
  maxDocuments : ℕ
  fate : StepFate

/-- The call asks for as many documents as are allowed, and nothing happens to it. -/
def StepCall.succeeds (step : StepCall) : Bool :=
  match step.fate with
  | .saved => 1 ≤ step.maxDocuments ∧ step.maxDocuments ≤ 10000
  | .failed _ => false

/-- A document that is imported into a cluster. -/
abbrev ImportedCopy (Doc : Type) := ClusterName × String × Doc

/-- The clusters, the saved checkpoint, all that was imported so far, and how many calls
have returned and saved their checkpoint. -/
structure BackfillState (Doc : Type) where
  storage : Storage Doc
  checkpoint : BackfillCheckpoint := {}
  imported : List (ImportedCopy Doc) := []
  saved : ℕ := 0

/-- The documents of some batches. -/
def entriesOf (batches : List (Batch Doc)) : List (ImportedCopy Doc) :=
  batches.flatMap fun batch => batch.2.map fun entry => (batch.1, entry)

/-- A part of some batches. -/
def appliedPart (applied : ClusterName → String → Bool) (batches : List (Batch Doc)) :
    List (Batch Doc) :=
  batches.map fun batch => (batch.1, batch.2.filter fun entry => applied batch.1 entry.1)

/-- The imports of some batches, one after the other. -/
def importBatches (storage : Storage Doc) (collection : String) (batches : List (Batch Doc)) :
    Storage Doc :=
  batches.foldl (fun storage batch => importDocuments storage collection batch) storage

namespace BackfillState

variable (federation : FederationService) (plan : RolloutPlan Doc) (ids : List String)
  (state : BackfillState Doc)

/-- The state after some imports. -/
def importing (batches : List (Batch Doc)) : BackfillState Doc :=
  { state with
    storage := importBatches state.storage plan.collection batches
    imported := state.imported ++ entriesOf batches }

/-- The state after the imports of a call whose checkpoint is saved. -/
def saving (batches : List (Batch Doc)) (result : BackfillStepResult) : BackfillState Doc :=
  { state.importing plan batches with
    checkpoint :=
      { state.checkpoint with
        lastDocumentId := result.lastDocumentId
        rawCopyComplete := result.complete }
    saved := state.saved + 1 }

/-- One call of `run_step` with the saved checkpoint. -/
def call [DecidableEq Doc] (step : StepCall) : BackfillState Doc :=
  match planStep federation plan (copiesOf state.storage plan.collection) ids state.checkpoint
      step.maxDocuments with
  | .error _ => state
  | .ok (batches, result) =>
    match step.fate with
    | .failed applied => state.importing plan (appliedPart applied batches)
    | .saved => state.saving plan batches result

end BackfillState

/-! ## Imports -/

variable {storage : Storage Doc} {collection : String} {batches : List (Batch Doc)}
  {cluster : ClusterName} {documentId : String} {document : Doc} {source : String → Option Doc}

theorem mem_entriesOf {entry : ImportedCopy Doc} :
    entry ∈ entriesOf batches ↔ ∃ batch ∈ batches, batch.1 = entry.1 ∧ entry.2 ∈ batch.2 := by
  unfold entriesOf
  rw [List.mem_flatMap]
  constructor
  · rintro ⟨batch, listed, member⟩
    obtain ⟨inner, there, rfl⟩ := List.mem_map.mp member
    exact ⟨batch, listed, rfl, there⟩
  · rintro ⟨batch, listed, named, member⟩
    refine ⟨batch, listed, List.mem_map.mpr ⟨entry.2, member, ?_⟩⟩
    rw [named]

theorem mem_entriesOf_appliedPart {applied : ClusterName → String → Bool}
    {entry : ImportedCopy Doc} (member : entry ∈ entriesOf (appliedPart applied batches)) :
    entry ∈ entriesOf batches := by
  obtain ⟨part, listed, named, there⟩ := mem_entriesOf.mp member
  obtain ⟨batch, whole, rfl⟩ := List.mem_map.mp listed
  exact mem_entriesOf.mpr ⟨batch, whole, named, List.mem_of_mem_filter there⟩

theorem copiesOf_importDocuments (batch : Batch Doc) :
    copiesOf (importDocuments storage collection batch) collection cluster documentId =
      if cluster = batch.1 then
        (batch.2.lookup documentId).or (copiesOf storage collection cluster documentId)
      else copiesOf storage collection cluster documentId := by
  simp [copiesOf, importDocuments]

/-- **One import of copies of the source**: what it imports is there, the rest is as it was. -/
theorem copiesOf_importDocuments_iff {batch : Batch Doc}
    (sound : ∀ entry ∈ batch.2, source entry.1 = some entry.2) :
    copiesOf (importDocuments storage collection batch) collection cluster documentId =
        some document ↔
      (batch.1 = cluster ∧ (documentId, document) ∈ batch.2) ∨
        copiesOf storage collection cluster documentId = some document ∧
          ∀ other, ¬(batch.1 = cluster ∧ (documentId, other) ∈ batch.2) := by
  rw [copiesOf_importDocuments]
  by_cases here : cluster = batch.1
  · subst here
    cases found : batch.2.lookup documentId with
    | none =>
        have absent : ∀ other, (documentId, other) ∉ batch.2 := by
          intro other member
          have differs := List.lookup_eq_none_iff.mp found _ member
          simp at differs
        simp [absent]
    | some copy =>
        obtain ⟨front, back, split, -⟩ := List.lookup_eq_some_iff.mp found
        have member : (documentId, copy) ∈ batch.2 := by
          rw [split]
          exact List.mem_append_right _ List.mem_cons_self
        have same : ∀ other, (documentId, other) ∈ batch.2 ↔ copy = other := by
          intro other
          constructor
          · intro listed
            have known := sound _ member
            rw [sound _ listed] at known
            exact (Option.some.inj known).symm
          · rintro rfl
            exact member
        simp [same]
  · have apart : batch.1 ≠ cluster := fun same => here same.symm
    simp [here, apart]

/-- **What imports of copies of the source leave**: what they import, and else what was
there. -/
theorem copiesOf_importBatches_iff
    (sound : ∀ entry ∈ entriesOf batches, source entry.2.1 = some entry.2.2) :
    copiesOf (importBatches storage collection batches) collection cluster documentId =
        some document ↔
      (cluster, documentId, document) ∈ entriesOf batches ∨
        copiesOf storage collection cluster documentId = some document ∧
          ∀ other, (cluster, documentId, other) ∉ entriesOf batches := by
  induction batches generalizing storage with
  | nil => simp [importBatches, entriesOf]
  | cons batch batches ih =>
      have split : ∀ entry : ImportedCopy Doc, entry ∈ entriesOf (batch :: batches) ↔
          (batch.1 = entry.1 ∧ entry.2 ∈ batch.2) ∨ entry ∈ entriesOf batches := by
        intro entry
        rw [mem_entriesOf, mem_entriesOf, List.exists_mem_cons_iff]
      have later : ∀ entry ∈ entriesOf batches, source entry.2.1 = some entry.2.2 :=
        fun entry member => sound entry ((split entry).mpr (Or.inr member))
      have first : ∀ entry ∈ batch.2, source entry.1 = some entry.2 :=
        fun entry member => sound (batch.1, entry) ((split _).mpr (Or.inl ⟨rfl, member⟩))
      show copiesOf (importBatches (importDocuments storage collection batch) collection batches)
        collection cluster documentId = some document ↔ _
      rw [ih later, copiesOf_importDocuments_iff first]
      simp only [split, not_or]
      constructor
      · rintro (imported | ⟨⟨here, member⟩ | ⟨kept, untouched⟩, spared⟩)
        · exact Or.inl (Or.inr imported)
        · exact Or.inl (Or.inl ⟨here, member⟩)
        · exact Or.inr ⟨kept, fun other => ⟨untouched other, spared other⟩⟩
      · rintro ((⟨here, member⟩ | imported) | ⟨kept, untouched⟩)
        · by_cases again : ∃ other, (cluster, documentId, other) ∈ entriesOf batches
          · obtain ⟨other, listed⟩ := again
            have same : document = other :=
              Option.some.inj ((first _ member).symm.trans (later _ listed))
            rw [same]
            exact Or.inl listed
          · exact Or.inr ⟨Or.inl ⟨here, member⟩, fun other listed => again ⟨other, listed⟩⟩
        · exact Or.inl imported
        · exact Or.inr ⟨Or.inr ⟨kept, fun other => (untouched other).1⟩,
            fun other => (untouched other).2⟩

/-! ## What a step imports -/

variable {federation : FederationService} {plan : RolloutPlan Doc} {policy : RoutingRules Doc}
  {ids : List String} {copies : Copies Doc} {clusters : List ClusterName}

theorem resolveAll_isOk {names : List ClusterName}
    (resolves : ∀ name ∈ names, ∃ cluster, federation.resolveClusterName name = some cluster) :
    ∃ clusters, federation.resolveAll names = .ok clusters := by
  induction names with
  | nil => exact ⟨[], rfl⟩
  | cons name names ih =>
      obtain ⟨cluster, found⟩ := resolves name List.mem_cons_self
      obtain ⟨rest, resolved⟩ := ih fun other later =>
        resolves other (List.mem_cons_of_mem _ later)
      refine ⟨cluster :: rest, ?_⟩
      unfold FederationService.resolveAll
      rw [found, resolved]

theorem candidateTargets_isOk (resolves : federation.Resolves policy) (documentId : String)
    (document : Doc) :
    ∃ targets, candidateTargets federation policy documentId document = .ok targets := by
  obtain ⟨clusters, resolved⟩ := resolveAll_isOk fun name member =>
    resolves name (policy.previewRouting_subset document name member)
  obtain ⟨name, previewed⟩ := List.exists_mem_of_ne_nil _ (policy.previewRouting_ne_nil document)
  obtain ⟨cluster, here⟩ := FederationService.exists_of_resolveAll resolved name previewed
  have member := (FederationService.mem_resolveAll resolved cluster).mpr ⟨name, previewed, here⟩
  unfold candidateTargets
  rw [resolved]
  cases clusters with
  | nil => cases member
  | cons first rest => exact ⟨_, rfl⟩

theorem routeSelected_isOk (resolves : federation.Resolves plan.candidatePolicy)
    (selected : List (String × Doc)) :
    ∃ routed, routeSelected federation plan selected = .ok routed := by
  induction selected with
  | nil => exact ⟨[], rfl⟩
  | cons entry selected ih =>
      obtain ⟨targets, here⟩ := candidateTargets_isOk resolves entry.1 entry.2
      obtain ⟨routed, tail⟩ := ih
      refine ⟨(entry, targets) :: routed, ?_⟩
      unfold routeSelected
      rw [here, tail]

theorem routeSelected_origin {selected : List (String × Doc)}
    {routed : List ((String × Doc) × List ClusterName)}
    (done : routeSelected federation plan selected = .ok routed) :
    ∀ entry ∈ routed, entry.1 ∈ selected ∧ ∀ cluster, cluster ∈ entry.2 ↔
      cluster ∈ federation.targetsForPolicyDocument plan.candidatePolicy entry.1.2 := by
  induction selected generalizing routed with
  | nil =>
      cases done
      simp
  | cons head selected ih =>
      obtain ⟨documentId, document⟩ := head
      unfold routeSelected at done
      split at done
      · cases done
      · cases done
      next targets rest here tail =>
        cases done
        intro entry member
        rcases List.mem_cons.mp member with rfl | later
        · exact ⟨List.mem_cons_self, fun cluster => mem_candidateTargets here⟩
        · obtain ⟨listed, targeted⟩ := ih tail entry later
          exact ⟨List.mem_cons_of_mem _ listed, targeted⟩

/-- The entries of the batches: each routed document, for each of its targets. -/
theorem mem_entriesOf_batchesOf {routed : List ((String × Doc) × List ClusterName)}
    {entry : ImportedCopy Doc} :
    entry ∈ entriesOf (batchesOf routed) ↔
      ∃ targets, (entry.2, targets) ∈ routed ∧ entry.1 ∈ targets := by
  rw [mem_entriesOf]
  constructor
  · rintro ⟨batch, listed, named, member⟩
    obtain ⟨target, -, rfl⟩ := List.mem_map.mp listed
    obtain ⟨inner, kept, same⟩ := List.mem_map.mp member
    obtain ⟨there, targeted⟩ := List.mem_filter.mp kept
    refine ⟨inner.2, ?_, ?_⟩
    · rw [← same]
      exact there
    · rw [← named]
      exact of_decide_eq_true targeted
  · rintro ⟨targets, member, targeted⟩
    exact mem_batchesOf member targeted

theorem sourceIds_congr {exported : String → Option Doc}
    (same : ∀ documentId ∈ ids, exported documentId = source documentId) :
    sourceIds ids exported = sourceIds ids source := by
  unfold sourceIds
  apply List.filter_congr
  intro documentId member
  rw [same documentId (mem_sortedIds.mp member)]

section Plan

variable [DecidableEq Doc] {checkpoint : BackfillCheckpoint} {maxDocuments : ℕ}

theorem exportClusters_isOk {documents : String → Option (Doc × ClusterName)}
    (agree : ∀ documentId ∈ ids, ∀ document, ((documents documentId).map Prod.fst = some document ∨
      ∃ cluster ∈ clusters, copies cluster documentId = some document) →
        source documentId = some document) :
    ∃ result, exportClusters copies ids documents clusters = .ok result := by
  induction clusters generalizing documents with
  | nil => exact ⟨documents, rfl⟩
  | cons cluster clusters ih =>
      have free : (ids.find? fun id => Conflicting (documents id) (copies cluster id)) = none := by
        rw [List.find?_eq_none]
        intro documentId member
        rw [decide_eq_true_eq]
        rintro ⟨known, held, copy, here, differ⟩
        apply differ
        have first := agree documentId member known.1 (Or.inl (by rw [held]; rfl))
        have second := agree documentId member copy (Or.inr ⟨cluster, List.mem_cons_self, here⟩)
        exact Option.some.inj (first.symm.trans second)
      unfold exportClusters mergeExport
      rw [free]
      apply ih
      rintro documentId member document (known | ⟨other, listed, copied⟩)
      · cases here : copies cluster documentId with
        | none =>
            rw [here] at known
            exact agree documentId member document (Or.inl known)
        | some copy =>
            rw [here] at known
            exact agree documentId member document
              (Or.inr ⟨cluster, List.mem_cons_self, here.trans known⟩)
      · exact agree documentId member document
          (Or.inr ⟨other, List.mem_cons_of_mem _ listed, copied⟩)

/-- **An export without conflict** is the source, whatever clusters hold its copies. -/
theorem exportPolicyUnion_source (resolved : policyClusters federation policy = .ok clusters)
    (held : ∀ documentId ∈ ids, ∀ document, source documentId = some document ↔
      ∃ cluster ∈ clusters, copies cluster documentId = some document) :
    ∃ exported, exportPolicyUnion copies ids federation policy = .ok exported ∧
      ∀ documentId ∈ ids, exported documentId = source documentId := by
  have agree : ∀ documentId ∈ ids, ∀ document,
      ((none : Option (Doc × ClusterName)).map Prod.fst = some document ∨
        ∃ cluster ∈ clusters, copies cluster documentId = some document) →
        source documentId = some document := by
    rintro documentId member document (nothing | there)
    · cases nothing
    · exact (held documentId member document).mpr there
  obtain ⟨merged, done⟩ : ∃ merged, exportClusters copies ids (fun _ => none) clusters =
    .ok merged := exportClusters_isOk agree
  have exported : exportPolicyUnion copies ids federation policy =
      .ok fun id => (merged id).map Prod.fst := by
    unfold exportPolicyUnion
    rw [resolved]
    simp only [done]
  refine ⟨_, exported, fun documentId member => ?_⟩
  obtain ⟨same, resolved', shows⟩ := exportPolicyUnion_iff exported
  rw [resolved] at resolved'
  cases resolved'
  apply Option.ext
  intro document
  rw [shows documentId member, held documentId member]

/-- **What a step imports, exactly**: the documents of its page, each into the targets of its
candidate route. -/
theorem planStep_exact (resolved : policyClusters federation plan.activePolicy = .ok clusters)
    (held : ∀ documentId ∈ ids, ∀ document, source documentId = some document ↔
      ∃ cluster ∈ clusters, copies cluster documentId = some document)
    {batches : List (Batch Doc)} {result : BackfillStepResult}
    (planned : planStep federation plan copies ids checkpoint maxDocuments =
      .ok (batches, result)) :
    1 ≤ maxDocuments ∧ maxDocuments ≤ 10000 ∧
      result.lastDocumentId = lastKey id checkpoint.lastDocumentId
        (page id checkpoint.lastDocumentId maxDocuments (sourceIds ids source)) ∧
      (result.complete = true ↔
        (page id checkpoint.lastDocumentId maxDocuments (sourceIds ids source)).length =
          (behind id checkpoint.lastDocumentId (sourceIds ids source)).length) ∧
      ∀ entry, entry ∈ entriesOf batches ↔
        entry.2.1 ∈ page id checkpoint.lastDocumentId maxDocuments (sourceIds ids source) ∧
          source entry.2.1 = some entry.2.2 ∧
            entry.1 ∈ federation.targetsForPolicyDocument plan.candidatePolicy entry.2.2 := by
  obtain ⟨exported, done, same⟩ := exportPolicyUnion_source resolved held
  unfold planStep at planned
  split at planned
  · cases planned
  next inRange =>
    rw [done] at planned
    simp only [sourceIds_congr same] at planned
    split at planned
    · cases planned
    next routed routing =>
      cases planned
      refine ⟨by omega, by omega, rfl, decide_eq_true_iff, fun entry => ?_⟩
      have selected : ∀ documentId document, (documentId, document) ∈
          ((page id checkpoint.lastDocumentId maxDocuments (sourceIds ids source)).filterMap
            fun id => (exported id).map fun document => (id, document)) ↔
          documentId ∈ page id checkpoint.lastDocumentId maxDocuments (sourceIds ids source) ∧
            source documentId = some document := by
        intro documentId document
        rw [List.mem_filterMap]
        constructor
        · rintro ⟨paged, member, found⟩
          obtain ⟨copy, known, pair⟩ := Option.map_eq_some_iff.mp found
          cases pair
          have inUse := List.mem_of_mem_filter (mem_of_mem_page member).1
          rw [same _ (mem_sortedIds.mp inUse)] at known
          exact ⟨member, known⟩
        · rintro ⟨member, known⟩
          have inUse := List.mem_of_mem_filter (mem_of_mem_page member).1
          rw [← same _ (mem_sortedIds.mp inUse)] at known
          exact ⟨documentId, member, by rw [known]; rfl⟩
      rw [mem_entriesOf_batchesOf, ← and_assoc, ← selected]
      constructor
      · rintro ⟨targets, member, targeted⟩
        obtain ⟨listed, exactly⟩ := routeSelected_origin routing _ member
        exact ⟨listed, (exactly entry.1).mp targeted⟩
      · rintro ⟨listed, targeted⟩
        obtain ⟨targets, member, exactly⟩ := (routeSelected_ok routing).1 _ listed
        exact ⟨targets, member, (exactly entry.1).mpr targeted⟩

theorem planStep_isOk (resolved : policyClusters federation plan.activePolicy = .ok clusters)
    (held : ∀ documentId ∈ ids, ∀ document, source documentId = some document ↔
      ∃ cluster ∈ clusters, copies cluster documentId = some document)
    (resolves : federation.Resolves plan.candidatePolicy)
    (inRange : 1 ≤ maxDocuments ∧ maxDocuments ≤ 10000) :
    ∃ planned, planStep federation plan copies ids checkpoint maxDocuments = .ok planned := by
  obtain ⟨exported, done, same⟩ := exportPolicyUnion_source resolved held
  unfold planStep
  rw [if_neg (by omega), done]
  simp only
  obtain ⟨routed, routing⟩ := routeSelected_isOk resolves
    ((page id checkpoint.lastDocumentId maxDocuments (sourceIds ids exported)).filterMap
      fun id => (exported id).map fun document => (id, document))
  rw [routing]
  exact ⟨_, rfl⟩

end Plan

/-! ## The state of a backfill -/

/-- A copy of the source that its candidate route asks for. -/
def Routed (federation : FederationService) (plan : RolloutPlan Doc)
    (source : String → Option Doc) (entry : ImportedCopy Doc) : Prop :=
  source entry.2.1 = some entry.2.2 ∧
    entry.1 ∈ federation.targetsForPolicyDocument plan.candidatePolicy entry.2.2

/-- **The invariant of a backfill.** Only routed copies of the source were imported, they are
what was added to the clusters, and none of a document before the cursor is missing. -/
structure TracksSource (federation : FederationService) (plan : RolloutPlan Doc)
    (source : String → Option Doc) (start : Copies Doc) (state : BackfillState Doc) : Prop where
  sound : ∀ entry ∈ state.imported, Routed federation plan source entry
  stored : ∀ cluster documentId document,
    copiesOf state.storage plan.collection cluster documentId = some document ↔
      (cluster, documentId, document) ∈ state.imported ∨
        start cluster documentId = some document ∧
          ∀ other, (cluster, documentId, other) ∉ state.imported
  covered : ∀ entry, Routed federation plan source entry →
    (entry.2.1 ≤ state.checkpoint.lastDocumentId ∨ state.checkpoint.rawCopyComplete = true) →
      entry ∈ state.imported

section Step

variable {state : BackfillState Doc} {start : Copies Doc} {step : StepCall}

/-- What the active clusters hold stays the source while copies of it are imported. -/
theorem TracksSource.held (tracks : TracksSource federation plan source start state)
    (begins : ∀ documentId document, source documentId = some document ↔
      ∃ cluster ∈ clusters, start cluster documentId = some document) :
    ∀ documentId document, source documentId = some document ↔
      ∃ cluster ∈ clusters,
        copiesOf state.storage plan.collection cluster documentId = some document := by
  intro documentId document
  constructor
  · intro known
    obtain ⟨cluster, listed, here⟩ := (begins documentId document).mp known
    refine ⟨cluster, listed, (tracks.stored cluster documentId document).mpr ?_⟩
    by_cases again : ∃ other, (cluster, documentId, other) ∈ state.imported
    · obtain ⟨other, imported⟩ := again
      have same : other = document :=
        Option.some.inj ((tracks.sound _ imported).1.symm.trans known)
      rw [← same]
      exact Or.inl imported
    · exact Or.inr ⟨here, fun other imported => again ⟨other, imported⟩⟩
  · rintro ⟨cluster, listed, here⟩
    rcases (tracks.stored cluster documentId document).mp here with imported | ⟨kept, -⟩
    · exact (tracks.sound _ imported).1
    · exact (begins documentId document).mpr ⟨cluster, listed, kept⟩

/-- Importing routed copies, in part or as a whole, keeps the invariant. -/
theorem TracksSource.importing (tracks : TracksSource federation plan source start state)
    {batches : List (Batch Doc)}
    (sound : ∀ entry ∈ entriesOf batches, Routed federation plan source entry) :
    TracksSource federation plan source start (state.importing plan batches) where
  sound := by
    intro entry member
    rcases List.mem_append.mp member with known | new
    · exact tracks.sound entry known
    · exact sound entry new
  stored := by
    intro cluster documentId document
    show copiesOf (importBatches state.storage plan.collection batches) plan.collection cluster
      documentId = some document ↔ _
    rw [copiesOf_importBatches_iff fun entry member => (sound entry member).1,
      tracks.stored cluster documentId document]
    simp only [BackfillState.importing, List.mem_append, not_or]
    constructor
    · rintro (new | ⟨known | ⟨kept, none⟩, spared⟩)
      · exact Or.inl (Or.inr new)
      · exact Or.inl (Or.inl known)
      · exact Or.inr ⟨kept, fun other => ⟨none other, spared other⟩⟩
    · rintro ((known | new) | ⟨kept, none⟩)
      · by_cases again : ∃ other, (cluster, documentId, other) ∈ entriesOf batches
        · obtain ⟨other, new⟩ := again
          have same : document = other := Option.some.inj
            ((tracks.sound _ known).1.symm.trans (sound _ new).1)
          rw [same]
          exact Or.inl new
        · exact Or.inr ⟨Or.inl known, fun other new => again ⟨other, new⟩⟩
      · exact Or.inl new
      · exact Or.inr ⟨Or.inr ⟨kept, fun other => (none other).1⟩, fun other => (none other).2⟩
  covered := fun entry routed passed => List.mem_append_left _ (tracks.covered entry routed passed)

/-- The ids that are still behind the cursor. -/
def pendingIds (ids : List String) (source : String → Option Doc) (state : BackfillState Doc) :
    List String :=
  behind id state.checkpoint.lastDocumentId (sourceIds ids source)

/-- **What a saved call did**: it imported the routed copies of its page, and its checkpoint
names the last of them and whether there are more. -/
structure SavedPage (federation : FederationService) (plan : RolloutPlan Doc)
    (source : String → Option Doc) (ids : List String) (state : BackfillState Doc) (limit : ℕ)
    (batches : List (Batch Doc)) (result : BackfillStepResult) : Prop where
  positive : 1 ≤ limit
  last : result.lastDocumentId = lastKey id state.checkpoint.lastDocumentId
    (page id state.checkpoint.lastDocumentId limit (sourceIds ids source))
  complete : result.complete = true ↔
    (page id state.checkpoint.lastDocumentId limit (sourceIds ids source)).length =
      (pendingIds ids source state).length
  entries : ∀ entry, entry ∈ entriesOf batches ↔
    entry.2.1 ∈ page id state.checkpoint.lastDocumentId limit (sourceIds ids source) ∧
      Routed federation plan source entry

/-- A saved page keeps the invariant. -/
theorem TracksSource.saving (tracks : TracksSource federation plan source start state)
    (listed : ∀ documentId document, source documentId = some document → documentId ∈ ids)
    {limit : ℕ} {batches : List (Batch Doc)} {result : BackfillStepResult}
    (paged : SavedPage federation plan source ids state limit batches result) :
    TracksSource federation plan source start (state.saving plan batches result) := by
  have imported := tracks.importing fun entry member => ((paged.entries entry).mp member).2
  refine ⟨imported.sound, imported.stored, fun entry routed passed => ?_⟩
  by_cases before : entry.2.1 ≤ state.checkpoint.lastDocumentId
  · exact imported.covered entry routed (Or.inl before)
  · have after : state.checkpoint.lastDocumentId < entry.2.1 := not_le.mp before
    have member := mem_sourceIds (listed _ _ routed.1) routed.1
    refine List.mem_append_right _ ((paged.entries entry).mpr ⟨?_, routed⟩)
    rcases passed with within | complete
    · refine mem_page_of_le_lastKey (sourceIds_pairwise ids source) member after ?_
      exact paged.last ▸ within
    · exact mem_page_of_complete (paged.complete.mp complete) member after

variable [DecidableEq Doc]

/-- **What a call can do**: nothing, import some routed copies, or save a page. Only a call that
does not succeed saves no page, as long as the candidate policy resolves. -/
theorem call_cases (ids : List String) (step : StepCall)
    (resolved : policyClusters federation plan.activePolicy = .ok clusters)
    (held : ∀ documentId document, source documentId = some document ↔
      ∃ cluster ∈ clusters,
        copiesOf state.storage plan.collection cluster documentId = some document) :
    (state.call federation plan ids step = state ∧
        (federation.Resolves plan.candidatePolicy → step.succeeds = false)) ∨
      (∃ batches, (∀ entry ∈ entriesOf batches, Routed federation plan source entry) ∧
        state.call federation plan ids step = state.importing plan batches ∧
          step.succeeds = false) ∨
      ∃ batches result, SavedPage federation plan source ids state step.maxDocuments batches
          result ∧
        state.call federation plan ids step = state.saving plan batches result ∧
          step.succeeds = true := by
  have listed : ∀ documentId ∈ ids, ∀ document, source documentId = some document ↔
      ∃ cluster ∈ clusters,
        copiesOf state.storage plan.collection cluster documentId = some document :=
    fun documentId _ => held documentId
  unfold BackfillState.call
  cases planned : planStep federation plan (copiesOf state.storage plan.collection) ids
      state.checkpoint step.maxDocuments with
  | error message =>
      refine Or.inl ⟨rfl, fun resolves => ?_⟩
      by_contra succeeds
      rw [Bool.not_eq_false] at succeeds
      have inRange : 1 ≤ step.maxDocuments ∧ step.maxDocuments ≤ 10000 := by
        unfold StepCall.succeeds at succeeds
        split at succeeds
        · exact of_decide_eq_true succeeds
        · cases succeeds
      obtain ⟨answer, done⟩ : ∃ answer, planStep federation plan
          (copiesOf state.storage plan.collection) ids state.checkpoint step.maxDocuments =
          .ok answer := planStep_isOk resolved listed resolves inRange
      rw [planned] at done
      cases done
  | ok answer =>
      obtain ⟨batches, result⟩ := answer
      obtain ⟨positive, bounded, last, complete, entries⟩ := planStep_exact resolved listed planned
      cases fate : step.fate with
      | failed applied =>
          refine Or.inr (Or.inl ⟨appliedPart applied batches, ?_, ?_, ?_⟩)
          · intro entry member
            exact ((entries entry).mp (mem_entriesOf_appliedPart member)).2
          · rfl
          · unfold StepCall.succeeds
            rw [fate]
      | saved =>
          refine Or.inr (Or.inr ⟨batches, result, ⟨positive, last, complete, entries⟩, rfl, ?_⟩)
          unfold StepCall.succeeds
          rw [fate]
          exact decide_eq_true ⟨positive, bounded⟩

/-- **One call keeps the invariant.** -/
theorem TracksSource.call (tracks : TracksSource federation plan source start state)
    (resolved : policyClusters federation plan.activePolicy = .ok clusters)
    (begins : ∀ documentId document, source documentId = some document ↔
      ∃ cluster ∈ clusters, start cluster documentId = some document)
    (listed : ∀ documentId document, source documentId = some document → documentId ∈ ids) :
    TracksSource federation plan source start (state.call federation plan ids step) := by
  rcases call_cases ids step resolved (tracks.held begins) with
    ⟨same, -⟩ | ⟨batches, sound, same, -⟩ | ⟨batches, result, paged, same, -⟩
  · rw [same]
    exact tracks
  · rw [same]
    exact tracks.importing sound
  · rw [same]
    exact tracks.saving listed paged

/-- **The measure of a backfill**: each saved call takes one of the ids that are left, until there
are none. -/
structure Advances (source : String → Option Doc) (ids : List String) (state : BackfillState Doc) :
    Prop where
  done : state.checkpoint.rawCopyComplete = true → pendingIds ids source state = []
  bound : state.checkpoint.rawCopyComplete = false →
    state.saved + (pendingIds ids source state).length ≤ ids.length
  left : state.checkpoint.rawCopyComplete = false →
    state.saved = 0 ∨ 0 < (pendingIds ids source state).length

omit [DecidableEq Doc] in
theorem Advances.saving (advances : Advances source ids state) {limit : ℕ}
    {batches : List (Batch Doc)} {result : BackfillStepResult}
    (paged : SavedPage federation plan source ids state limit batches result) :
    Advances source ids (state.saving plan batches result) := by
  have next : pendingIds ids source (state.saving plan batches result) =
      (pendingIds ids source state).drop limit := by
    show behind id result.lastDocumentId (sourceIds ids source) = _
    rw [paged.last]
    exact behind_lastKey (sourceIds_pairwise ids source)
  have taken : (page id state.checkpoint.lastDocumentId limit (sourceIds ids source)).length =
      min limit (pendingIds ids source state).length := List.length_take
  have complete := paged.complete
  have positive := paged.positive
  rw [taken] at complete
  -- There is more behind the page only when it is full.
  have more : result.complete = false → limit < (pendingIds ids source state).length := by
    intro unfinished
    by_contra short
    rw [complete.mpr (by omega)] at unfinished
    cases unfinished
  refine ⟨fun finished => ?_, fun unfinished => ?_, fun unfinished => Or.inr ?_⟩
  · rw [next, List.drop_eq_nil_iff]
    have all := complete.mp finished
    omega
  · have full := more unfinished
    have before : state.checkpoint.rawCopyComplete = false := by
      by_contra finished
      rw [advances.done (by simpa using finished)] at full
      simp at full
    have bound := advances.bound before
    rw [next, List.length_drop]
    show state.saved + 1 + _ ≤ _
    omega
  · rw [next, List.length_drop]
    have full := more unfinished
    omega

/-- One call keeps the measure. -/
theorem Advances.call (advances : Advances source ids state)
    (resolved : policyClusters federation plan.activePolicy = .ok clusters)
    (held : ∀ documentId document, source documentId = some document ↔
      ∃ cluster ∈ clusters,
        copiesOf state.storage plan.collection cluster documentId = some document) :
    Advances source ids (state.call federation plan ids step) := by
  rcases call_cases ids step resolved held with
    ⟨same, -⟩ | ⟨batches, -, same, -⟩ | ⟨batches, result, paged, same, -⟩
  · rw [same]
    exact advances
  · rw [same]
    exact ⟨advances.done, advances.bound, advances.left⟩
  · rw [same]
    exact advances.saving paged

end Step

/-! ## A whole backfill -/

section Run

variable [DecidableEq Doc] (federation : FederationService) (plan : RolloutPlan Doc)
  (ids : List String) (storage : Storage Doc)

/-- The state after some calls, the first with an empty checkpoint. -/
def backfill (steps : List StepCall) : BackfillState Doc :=
  run (fun state step => state.call federation plan ids step) { storage } steps

variable {federation plan ids storage} {steps : List StepCall}

end Run

end ImposbroSearch.Migration
