import ImposbroSearch.Foundation.Lockstep
import ImposbroSearch.Foundation.Runs
import ImposbroSearch.Indexing.CheckpointAgreement

/-!
# Runs of the checkpoint stores

The sessions of both stores apply the same plans and save the same checkpoints, one target
after another; the scopes commit what was saved, also after a failure. So both stores give
the same results over every run of attempts, and their tables hold the same.
-/

namespace ImposbroSearch.Indexing.EventEnvelope

open ImposbroSearch.Foundation ImposbroSearch.ControlPlane

variable {table : PrintableTable} {F : Type} [PyFloat F] {hash : List ℕ → Text}

section Agreement

variable {sha256 : Sha256} {otherFormats : Text → Option Moment}
  {attempts : List (Attempt table F)} {attempt : Attempt table F} {records : CheckpointRecords}
  {rows : CheckpointRows}

/-! ## Applying -/

/-- The names of the plans that are applied. -/
def appliedTargets (suppressApplies : Bool) (plans : List (Text × CheckpointDecision)) :
    List Text :=
  (plans.filter fun plan => plan.2 = .apply ∧ suppressApplies = false).map Prod.fst

variable (hash) (attempt) in
/-- What was saved, and what stopped the rest: every target in order, up to one whose call
failed or for which no checkpoint can be built. -/
def Progress (applied : List Text) (saved : List TargetCheckpoint)
    (failure : Option ProcessingError) : Prop :=
  match failure with
  | none => saved.map TargetCheckpoint.targetCluster = applied
  | some error => ∃ target rest,
      applied = saved.map TargetCheckpoint.targetCluster ++ target :: rest ∧
        ((attempt.completes target = false ∧ error = .typesense target) ∨
          (checkpointFromEvent hash attempt.event target (attempt.clock target) = none ∧
            error = .conversion))

variable (sha256 attempt records) in
/-- What is staged for a target: its checkpoint, over an older record, under its key. -/
def StagedFor (entry : Text × TargetCheckpoint) (target : Text) : Prop :=
  target ∈ attempt.event.targets ∧ checkpointId sha256 attempt.event target = some entry.1 ∧
    checkpointFromEvent sha256.hexdigest attempt.event target (attempt.clock target) =
      some entry.2 ∧ Outdated sha256 attempt records target

omit [PyFloat F] in
/-- Two targets of an event have two keys. -/
theorem KeysDistinct.target_eq (distinct : KeysDistinct sha256 attempts)
    (listed : attempt ∈ attempts) {target other : Text} (targeted : target ∈ attempt.event.targets)
    (aimed : other ∈ attempt.event.targets)
    (same : checkpointId sha256 attempt.event target = checkpointId sha256 attempt.event other) :
    target = other :=
  (material_inj targeted aimed
    (distinct attempt listed attempt listed target targeted other aimed same)).2

variable (sha256 otherFormats attempt records) in
/-- Both sessions apply the plans with the same result. -/
structure AppliedTogether (returned : CheckpointRow → CheckpointRow) (suppressApplies : Bool)
    (plans : List (Text × CheckpointDecision)) (memory : InMemoryEventSession table F)
    (postgres postgres' : PostgresEventSession table F) (staged : List (Text × TargetCheckpoint))
    (failure : Option ProcessingError) : Prop where
  inMemory : applyPlans sha256.hexdigest (InMemoryEventSession.protocol sha256) attempt
      suppressApplies memory plans =
    ({ memory with staged := memory.staged ++ staged }, staged.map Prod.snd, failure)
  inPostgres : applyPlans sha256.hexdigest
      (PostgresEventSession.protocol sha256 otherFormats returned) attempt suppressApplies
      postgres plans =
    (postgres', staged.map Prod.snd, failure)
  together : Together sha256 otherFormats attempt records
    { memory with staged := memory.staged ++ staged } postgres'
  entries : ∀ entry ∈ staged, ∃ target ∈ plans.map Prod.fst,
    StagedFor sha256 attempt records entry target
  keys : (staged.map Prod.fst).Nodup
  progress : Progress sha256.hexdigest attempt (appliedTargets suppressApplies plans)
    (staged.map Prod.snd) failure

section Applying

variable {returned : CheckpointRow → CheckpointRow} {suppressApplies : Bool}
  {plans : List (Text × CheckpointDecision)} {memory : InMemoryEventSession table F}
  {postgres postgres' : PostgresEventSession table F} {staged : List (Text × TargetCheckpoint)}
  {failure : Option ProcessingError} {target : Text} {decision : CheckpointDecision}

/-- The call of a target fails, or there is nothing to save for it. -/
theorem applyTarget_eq_error {σ : Type} {session : EventCheckpointSession table F σ} {state : σ}
    {error : ProcessingError}
    (fails : (attempt.completes target = false ∧ error = .typesense target) ∨
      (attempt.completes target = true ∧
        checkpointFromEvent hash attempt.event target (attempt.clock target) = none ∧
          error = .conversion)) :
    applyTarget hash session attempt state target = .error error := by
  unfold applyTarget
  rcases fails with ⟨fails, rfl⟩ | ⟨completes, absent, rfl⟩
  · rw [if_pos fails]
  · rw [if_neg (by simp [completes]), absent]

theorem applyTarget_eq_ok {σ : Type} {session : EventCheckpointSession table F σ} {state state' : σ}
    {checkpoint : TargetCheckpoint} (completes : attempt.completes target = true)
    (built : checkpointFromEvent hash attempt.event target (attempt.clock target) =
      some checkpoint) (saved : session.save state checkpoint = .ok state') :
    applyTarget hash session attempt state target = .ok (state', checkpoint) := by
  unfold applyTarget
  rw [if_neg (by simp [completes]), built]
  simp only [saved]
  rfl

/-- A target that is not applied is left as it is. -/
theorem AppliedTogether.skip (skipped : decision ≠ .apply ∨ suppressApplies = true)
    (rest : AppliedTogether sha256 otherFormats attempt records returned suppressApplies plans
      memory postgres postgres' staged failure) :
    AppliedTogether sha256 otherFormats attempt records returned suppressApplies
      ((target, decision) :: plans) memory postgres postgres' staged failure where
  inMemory := by
    rw [applyPlans, if_pos skipped]
    exact rest.inMemory
  inPostgres := by
    rw [applyPlans, if_pos skipped]
    exact rest.inPostgres
  together := rest.together
  entries entry member := by
    obtain ⟨name, named, stagedFor⟩ := rest.entries entry member
    exact ⟨name, List.mem_cons_of_mem _ named, stagedFor⟩
  keys := rest.keys
  progress := by
    have applied : appliedTargets suppressApplies ((target, decision) :: plans) =
        appliedTargets suppressApplies plans := by
      unfold appliedTargets
      rw [List.filter_cons_of_neg]
      rcases skipped with other | suppressed
      · simp [other]
      · simp [suppressed]
    rw [applied]
    exact rest.progress

theorem appliedTargets_cons (applied : ¬(decision ≠ .apply ∨ suppressApplies = true)) :
    appliedTargets suppressApplies ((target, decision) :: plans) =
      target :: appliedTargets suppressApplies plans := by
  unfold appliedTargets
  rw [List.filter_cons_of_pos, List.map_cons]
  simpa [not_or] using applied

/-- A target that cannot be applied ends the loop. -/
theorem AppliedTogether.fail (applied : ¬(decision ≠ .apply ∨ suppressApplies = true))
    (together : Together sha256 otherFormats attempt records memory postgres)
    {error : ProcessingError}
    (fails : (attempt.completes target = false ∧ error = .typesense target) ∨
      (attempt.completes target = true ∧
        checkpointFromEvent sha256.hexdigest attempt.event target (attempt.clock target) = none ∧
          error = .conversion)) :
    AppliedTogether sha256 otherFormats attempt records returned suppressApplies
      ((target, decision) :: plans) memory postgres postgres [] (some error) where
  inMemory := by
    rw [applyPlans, if_neg applied, applyTarget_eq_error fails, List.append_nil]
    rfl
  inPostgres := by
    rw [applyPlans, if_neg applied, applyTarget_eq_error fails]
    rfl
  together := by
    rw [List.append_nil]
    exact together
  entries _ member := absurd member List.not_mem_nil
  keys := List.nodup_nil
  progress := by
    refine ⟨target, _, appliedTargets_cons applied, ?_⟩
    rcases fails with fails | ⟨-, fails⟩
    · exact Or.inl fails
    · exact Or.inr fails

/-- A target that is applied is staged before the rest. -/
theorem AppliedTogether.apply (applied : ¬(decision ≠ .apply ∨ suppressApplies = true))
    (completes : attempt.completes target = true) {entry : Text × TargetCheckpoint}
    (stagedFor : StagedFor sha256 attempt records entry target)
    (unlisted : entry.1 ∉ staged.map Prod.fst) {next : PostgresEventSession table F}
    (first : InMemoryEventSession.save sha256 memory entry.2 =
      .ok { memory with staged := memory.staged ++ [entry] })
    (second : PostgresEventSession.save sha256 otherFormats postgres entry.2 = .ok next)
    (rest : AppliedTogether sha256 otherFormats attempt records returned suppressApplies plans
      { memory with staged := memory.staged ++ [entry] } next postgres' staged failure) :
    AppliedTogether sha256 otherFormats attempt records returned suppressApplies
      ((target, decision) :: plans) memory postgres postgres' (entry :: staged) failure where
  inMemory := by
    rw [applyPlans, if_neg applied, applyTarget_eq_ok completes stagedFor.2.2.1 first]
    simp only [rest.inMemory, List.append_assoc, List.singleton_append, List.map_cons]
  inPostgres := by
    rw [applyPlans, if_neg applied, applyTarget_eq_ok completes stagedFor.2.2.1 second]
    simp only [rest.inPostgres, List.map_cons]
  together := by simpa only [List.append_assoc, List.singleton_append] using rest.together
  entries other member := by
    rcases List.mem_cons.mp member with rfl | member
    · exact ⟨target, List.mem_cons_self, stagedFor⟩
    · obtain ⟨name, named, stagedFor⟩ := rest.entries other member
      exact ⟨name, List.mem_cons_of_mem _ named, stagedFor⟩
  keys := List.nodup_cons.mpr ⟨unlisted, rest.keys⟩
  progress := by
    have cluster : entry.2.targetCluster = target := by
      obtain ⟨digest, -, built⟩ := Option.map_eq_some_iff.mp stagedFor.2.2.1
      rw [← built]
    have remaining := rest.progress
    rw [appliedTargets_cons applied]
    cases failure with
    | none =>
        change _ :: List.map _ _ = _
        rw [cluster]
        exact congrArg _ remaining
    | some error =>
        obtain ⟨name, others, split, why⟩ := remaining
        refine ⟨name, others, ?_, why⟩
        rw [split, List.map_cons, List.map_cons, cluster]
        rfl

/-- **Both sessions apply the same**, and neither refuses what is saved. -/
theorem applyPlans_together (built : RecordsBuilt sha256 attempts records)
    (distinct : KeysDistinct sha256 attempts) (listed : attempt ∈ attempts)
    (defined : ∀ target ∈ attempt.event.targets,
      ∃ key, checkpointId sha256 attempt.event target = some key)
    (nodup : (plans.map Prod.fst).Nodup)
    (targeted : ∀ plan ∈ plans, plan.1 ∈ attempt.event.targets)
    (outdated : ∀ plan ∈ plans, plan.2 = .apply → Outdated sha256 attempt records plan.1)
    (together : Together sha256 otherFormats attempt records memory postgres)
    (fresh : ∀ entry ∈ memory.staged, ∃ target, target ∉ plans.map Prod.fst ∧
      StagedFor sha256 attempt records entry target) :
    ∃ postgres' staged failure, AppliedTogether sha256 otherFormats attempt records returned
      suppressApplies plans memory postgres postgres' staged failure := by
  induction plans generalizing memory postgres with
  | nil =>
      refine ⟨postgres, [], none, ⟨?_, rfl, ?_, fun _ member => absurd member List.not_mem_nil,
        List.nodup_nil, rfl⟩⟩
      · rw [List.append_nil]
        rfl
      · rw [List.append_nil]
        exact together
  | cons plan plans ih =>
      obtain ⟨target, decision⟩ := plan
      obtain ⟨unlisted, others⟩ := List.nodup_cons.mp nodup
      have here := targeted (target, decision) List.mem_cons_self
      have targets : ∀ plan ∈ plans, plan.1 ∈ attempt.event.targets :=
        fun plan member => targeted plan (List.mem_cons_of_mem _ member)
      have older : ∀ plan ∈ plans, plan.2 = .apply → Outdated sha256 attempt records plan.1 :=
        fun plan member => outdated plan (List.mem_cons_of_mem _ member)
      by_cases skipped : decision ≠ .apply ∨ suppressApplies = true
      · obtain ⟨postgres', staged, failure, rest⟩ :=
          ih others targets older together fun entry member => by
            obtain ⟨name, absent, stagedFor⟩ := fresh entry member
            exact ⟨name, fun member => absent (List.mem_cons_of_mem _ member), stagedFor⟩
        exact ⟨postgres', staged, failure, rest.skip skipped⟩
      · cases completes : attempt.completes target with
        | false => exact ⟨postgres, [], _, .fail skipped together (Or.inl ⟨completes, rfl⟩)⟩
        | true =>
            cases builds : checkpointFromEvent sha256.hexdigest attempt.event target
              (attempt.clock target) with
            | none =>
                exact ⟨postgres, [], _,
                  .fail skipped together (Or.inr ⟨completes, builds, rfl⟩)⟩
            | some checkpoint =>
                obtain ⟨key, keyed⟩ := defined target here
                have stale := outdated (target, decision) List.mem_cons_self (by
                  by_contra other
                  exact skipped (Or.inl other))
                have stagedFor : StagedFor sha256 attempt records (key, checkpoint) target :=
                  ⟨here, keyed, builds, stale⟩
                -- the keys of what is staged are those of other targets
                have unstaged : memory.staged.lookup key = none := by
                  rw [List.lookup_eq_none_iff]
                  intro entry member
                  obtain ⟨name, absent, aimed, named, -, -⟩ := fresh entry member
                  refine bne_iff_ne.mpr ?_
                  rintro rfl
                  obtain rfl := distinct.target_eq listed here aimed (keyed.trans named.symm)
                  exact absent List.mem_cons_self
                obtain ⟨next, first, second, saved⟩ :=
                  save_together together built here keyed stale unstaged builds
                obtain ⟨postgres', staged, failure, rest⟩ :=
                  ih others targets older saved fun entry member => by
                    rcases List.mem_append.mp member with before | now
                    · obtain ⟨name, absent, stagedFor⟩ := fresh entry before
                      exact ⟨name, fun member => absent (List.mem_cons_of_mem _ member), stagedFor⟩
                    · obtain rfl := List.mem_singleton.mp now
                      exact ⟨target, unlisted, stagedFor⟩
                refine ⟨postgres', (key, checkpoint) :: staged, failure,
                  rest.apply skipped completes stagedFor (fun member => ?_) first second⟩
                obtain ⟨entry, there, same⟩ := List.mem_map.mp member
                obtain ⟨name, member, aimed, named, -, -⟩ := rest.entries entry there
                rw [same] at named
                obtain rfl := distinct.target_eq listed here aimed (keyed.trans named.symm)
                exact unlisted member

end Applying

/-! ## Scopes -/

omit [PyFloat F] in
/-- **What is staged is committed** where no record is newer. -/
theorem commitStaged_of_newer {staged : List (Text × TargetCheckpoint)}
    (nodup : (staged.map Prod.fst).Nodup)
    (newer : ∀ entry ∈ staged, ∀ current, records entry.1 = some current →
      current.sequence ≤ entry.2.sequence ∧ current.documentVersion ≤ entry.2.documentVersion) :
    commitStaged records staged = (fun key => (staged.lookup key).or (records key), none) := by
  induction staged generalizing records with
  | nil => rfl
  | cons entry staged ih =>
      obtain ⟨key, checkpoint⟩ := entry
      obtain ⟨unlisted, others⟩ := List.nodup_cons.mp nodup
      have accepted : ¬(records key).any (fun current => checkpoint.sequence < current.sequence ||
          checkpoint.documentVersion < current.documentVersion) := by
        rw [Option.any_eq_true]
        rintro ⟨current, found, older⟩
        have bounds := newer (key, checkpoint) List.mem_cons_self current found
        simp only [Bool.or_eq_true, decide_eq_true_eq] at older
        simp only at bounds
        omega
      have untouched : ∀ entry ∈ staged, entry.1 ≠ key := by
        rintro entry member rfl
        exact unlisted (List.mem_map.mpr ⟨entry, member, rfl⟩)
      rw [commitStaged, if_neg accepted, ih others fun entry member current found => by
        rw [Function.update_of_ne (untouched entry member)] at found
        exact newer entry (List.mem_cons_of_mem _ member) current found]
      refine congrArg (fun records => (records, none)) (funext fun other => ?_)
      rw [List.lookup_cons]
      by_cases same : other = key
      · subst same
        have absent : staged.lookup other = none :=
          List.lookup_eq_none_iff.mpr fun entry member =>
            bne_iff_ne.mpr (untouched entry member).symm
        rw [absent, beq_self_eq_true, Function.update_self]
        rfl
      · rw [beq_eq_false_iff_ne.mpr same, Function.update_of_ne same]

/-- The exception that ended the processing. -/
def Processed.failure (processed : Processed) : Option ProcessingError :=
  match processed.outcome with
  | .ok _ => none
  | .error error => some error

variable (hash) (attempt) in
/-- What was saved: nothing, if a target was not planned, and else the targets that were to
be applied, up to one that failed. -/
def SavedInOrder (processed : Processed) : Prop :=
  if processed.decisions.length = attempt.event.targets.length then
    Progress hash attempt (appliedTargets (processed.decisions.contains .stale)
      (attempt.event.targets.zip processed.decisions)) processed.saved processed.failure
  else processed.saved = []

variable (sha256 records) in
/-- The records with what was saved. -/
def withSaved (saved : List TargetCheckpoint) : CheckpointRecords := fun key =>
  (saved.find? fun checkpoint => checkpointDocumentId sha256 checkpoint = some key).or (records key)

/-- The planning ends early, or has a decision for every target. -/
theorem planTargets_failure {σ : Type} {session : EventCheckpointSession table F σ} {state : σ}
    {targets : List Text} :
    (planTargets hash session attempt state targets).2 = none ↔
      (planTargets hash session attempt state targets).1.length = targets.length := by
  induction targets with
  | nil => exact iff_of_true rfl rfl
  | cons target targets ih =>
      unfold planTargets
      split
      · exact iff_of_false (Option.some_ne_none _) (Nat.succ_ne_zero _).symm
      · split
        · exact iff_of_false (Option.some_ne_none _) (Nat.succ_ne_zero _).symm
        · split
          · exact iff_of_false (Option.some_ne_none _) (Nat.succ_ne_zero _).symm
          · rw [List.length_cons, List.length_cons, Nat.succ_inj]
            exact ih

omit [PyFloat F] in
/-- The first of what is staged under a key is the first of what was saved for it. -/
theorem lookup_staged {staged : List (Text × TargetCheckpoint)}
    (keyed : ∀ entry ∈ staged, checkpointDocumentId sha256 entry.2 = some entry.1) (key : Text) :
    staged.lookup key = (staged.map Prod.snd).find? fun checkpoint =>
      checkpointDocumentId sha256 checkpoint = some key := by
  induction staged with
  | nil => rfl
  | cons entry staged ih =>
      have here := keyed entry List.mem_cons_self
      rw [List.lookup_cons, List.map_cons, List.find?_cons, here,
        ih fun entry member => keyed entry (List.mem_cons_of_mem _ member)]
      by_cases same : key = entry.1
      · rw [beq_iff_eq.mpr same, decide_eq_true (congrArg some same.symm)]
      · rw [beq_eq_false_iff_ne.mpr same,
          decide_eq_false fun other => same (Option.some.inj other).symm]

/-- The processing ends where the planning fails. -/
theorem processV2Event_of_failure {σ : Type} {session : EventCheckpointSession table F σ}
    {state : σ} {plans : List (Text × CheckpointDecision)} {error : ProcessingError}
    (planned : planTargets hash session attempt state attempt.event.targets = (plans, some error)) :
    processV2Event hash session attempt state =
      (state, ⟨plans.map Prod.snd, [], .error error⟩) := by
  unfold processV2Event
  rw [planned]

/-- The processing applies what was planned. -/
theorem processV2Event_of_applied {σ : Type} {session : EventCheckpointSession table F σ}
    {state state' : σ} {plans : List (Text × CheckpointDecision)} {saved : List TargetCheckpoint}
    {failure : Option ProcessingError}
    (planned : planTargets hash session attempt state attempt.event.targets = (plans, none))
    (applied : applyPlans hash session attempt ((plans.map Prod.snd).contains .stale) state plans =
      (state', saved, failure)) :
    processV2Event hash session attempt state =
      (state', ⟨plans.map Prod.snd, saved,
        (failure.map Except.error).getD (.ok (resultOf (plans.map Prod.snd)))⟩) := by
  unfold processV2Event
  rw [planned]
  simp only [applied]
  cases failure with
  | none => rfl
  | some error => rfl

/-- What is staged over older records stays within what the attempts build. -/
theorem RecordsBuilt.withSaved (built : RecordsBuilt sha256 attempts records)
    (listed : attempt ∈ attempts) {saved : List TargetCheckpoint}
    (builds : ∀ checkpoint ∈ saved, attempt.Builds sha256.hexdigest checkpoint) :
    RecordsBuilt sha256 attempts (withSaved sha256 records saved) := by
  intro key checkpoint found
  rcases Option.or_eq_some_iff.mp found with here | ⟨-, before⟩
  · exact ⟨by simpa using List.find?_some here,
      attempt, listed, builds checkpoint (List.mem_of_find?_eq_some here)⟩
  · exact built key checkpoint before

/-- The targets that are planned to be applied have older records, or none. -/
theorem outdated_of_plan {σ : Type} (session : EventCheckpointSession table F σ) (state : σ)
    (built : RecordsBuilt sha256 attempts records) (distinct : KeysDistinct sha256 attempts)
    (listed : attempt ∈ attempts)
    (loads : ∀ target ∈ attempt.event.targets, ∃ key,
      checkpointId sha256 attempt.event target = some key ∧
        session.load state attempt.event target = .ok (records key))
    {plan : Text × CheckpointDecision} (targeted : plan.1 ∈ attempt.event.targets)
    (decided : ∃ checkpoint, session.load state attempt.event plan.1 = .ok checkpoint ∧
      classifyEvent hash attempt.event checkpoint = .ok plan.2)
    (applies : plan.2 = .apply) : Outdated sha256 attempt records plan.1 := by
  intro key current keyed found
  obtain ⟨other, same, loaded⟩ := loads plan.1 targeted
  obtain rfl := Option.some.inj (keyed.symm.trans same)
  obtain ⟨checkpoint, again, decision⟩ := decided
  obtain rfl := Except.ok.inj (loaded.symm.trans again)
  rw [found, applies] at decision
  obtain ⟨builder, -, identity, builds⟩ := built.same distinct listed targeted keyed found
  obtain ⟨digest, -, made⟩ := Option.map_eq_some_iff.mp builds
  rw [← made] at decision ⊢
  exact ⟨congrArg EventIdentity.logicalKey identity, rfl, older_of_apply decision⟩

/-- A scope in memory merges what was staged. -/
theorem inMemoryScope_of_processed {keys : List Text}
    (keyed : attempt.event.targets.mapM (checkpointId sha256 attempt.event) = some keys)
    {session : InMemoryEventSession table F} {processed : Processed}
    (done : processV2Event sha256.hexdigest (InMemoryEventSession.protocol sha256) attempt
      ⟨attempt.event, records, []⟩ = (session, processed)) {merged : CheckpointRecords}
    (committed : commitStaged records session.staged = (merged, none)) :
    inMemoryScope sha256 records attempt = (merged, processed) := by
  unfold inMemoryScope
  rw [keyed]
  simp only [done, committed]

/-- A scope in Postgres commits, unless a statement was refused. -/
theorem postgresScope_of_processed {returned : CheckpointRow → CheckpointRow} {keys : List Text}
    (keyed : attempt.event.targets.mapM (checkpointId sha256 attempt.event) = some keys)
    {session : PostgresEventSession table F} {processed : Processed}
    (done : processV2Event sha256.hexdigest
      (PostgresEventSession.protocol sha256 otherFormats returned) attempt
      ⟨attempt.event, rows, attempt.event.targets.zip keys⟩ = (session, processed))
    (accepted : ∀ target, processed.outcome ≠ .error (.database target)) :
    postgresScope sha256 otherFormats returned rows attempt = (session.rows, processed) := by
  unfold postgresScope
  rw [keyed]
  simp only [done]

/-- No statement is refused where the processing makes progress. -/
theorem Progress.accepted {applied : List Text} {saved : List TargetCheckpoint}
    {failure : Option ProcessingError} (progress : Progress hash attempt applied saved failure)
    (target : Text) : failure ≠ some (.database target) := by
  rintro rfl
  obtain ⟨_, _, -, ⟨-, other⟩ | ⟨-, other⟩⟩ := progress
  · cases other
  · cases other

/-- **The scopes of both stores** end with the same result, and with rows that are those of
the records. -/
theorem scopes_agree {returned : CheckpointRow → CheckpointRow}
    (returns : ∀ values, ReadBack values (returned values))
    (stored : Stored sha256 otherFormats records rows)
    (built : RecordsBuilt sha256 attempts records) (distinct : KeysDistinct sha256 attempts)
    (listed : attempt ∈ attempts) :
    ∃ rows' processed,
      inMemoryScope sha256 records attempt = (withSaved sha256 records processed.saved, processed) ∧
      postgresScope sha256 otherFormats returned rows attempt = (rows', processed) ∧
      Stored sha256 otherFormats (withSaved sha256 records processed.saved) rows' ∧
      RecordsBuilt sha256 attempts (withSaved sha256 records processed.saved) ∧
      SavedInOrder sha256.hexdigest attempt processed := by
  cases keyed : attempt.event.targets.mapM (checkpointId sha256 attempt.event) with
  | none =>
      refine ⟨rows, ⟨[], [], .error .conversion⟩, ?_, ?_, stored, built, ?_⟩
      · unfold inMemoryScope
        rw [keyed]
        rfl
      · unfold postgresScope
        rw [keyed]
      · obtain ⟨target, targeted, -⟩ := mapM_eq_none.mp keyed
        unfold SavedInOrder
        rw [if_neg fun empty => absurd (List.length_pos_of_mem targeted) (by rw [← empty]; decide)]
  | some keys =>
      have loads := fun target (targeted : target ∈ attempt.event.targets) =>
        load_eq_load returns stored built distinct listed keyed targeted
      have defined : ∀ target ∈ attempt.event.targets,
          ∃ key, checkpointId sha256 attempt.event target = some key :=
        fun target targeted => (loads target targeted).imp fun _ all => all.1
      -- both plan the same, from what both load
      obtain ⟨plans, failure, first, second, names, decided, ended⟩ :
          ∃ plans failure,
            planTargets sha256.hexdigest (InMemoryEventSession.protocol sha256) attempt
              ⟨attempt.event, records, []⟩ attempt.event.targets = (plans, failure) ∧
            planTargets sha256.hexdigest
              (PostgresEventSession.protocol sha256 otherFormats returned) attempt
              ⟨attempt.event, rows, attempt.event.targets.zip keys⟩ attempt.event.targets =
                (plans, failure) ∧
            plans.map Prod.fst <+: attempt.event.targets ∧
            (∀ plan ∈ plans, ∃ checkpoint,
              InMemoryEventSession.load sha256 ⟨attempt.event, records, []⟩ attempt.event plan.1 =
                .ok checkpoint ∧
              classifyEvent sha256.hexdigest attempt.event checkpoint = .ok plan.2) ∧
            (failure = none ↔ plans.length = attempt.event.targets.length) := by
        refine ⟨_, _, rfl, ?_, planTargets_spec.1, planTargets_spec.2, planTargets_failure⟩
        refine (planTargets_congr fun target targeted => ?_).symm
        obtain ⟨key, -, one, other⟩ := loads target targeted
        exact one.trans other.symm
      cases failure with
      | some error =>
          refine ⟨rows, ⟨plans.map Prod.snd, [], .error error⟩, ?_, ?_, stored, built, ?_⟩
          · exact inMemoryScope_of_processed keyed (processV2Event_of_failure first) rfl
          · unfold postgresScope
            rw [keyed]
            simp only [processV2Event_of_failure second]
            split
            · rfl
            · rfl
          · unfold SavedInOrder
            rw [if_neg fun all => by
              rw [List.length_map] at all
              cases ended.mpr all]
      | none =>
          have aimed : plans.map Prod.fst = attempt.event.targets :=
            names.eq_of_length (by rw [List.length_map]; exact ended.mp rfl)
          have targeted : ∀ plan ∈ plans, plan.1 ∈ attempt.event.targets := fun plan member =>
            aimed ▸ List.mem_map.mpr ⟨plan, member, rfl⟩
          have nodup : (plans.map Prod.fst).Nodup := by
            rw [aimed]
            exact attempt.event.targets_nodup.map fun _ _ => Identifier.ext
          obtain ⟨postgres', staged, failure, applied⟩ : ∃ postgres' staged failure,
              AppliedTogether sha256 otherFormats attempt records returned
                ((plans.map Prod.snd).contains .stale) plans ⟨attempt.event, records, []⟩
                ⟨attempt.event, rows, attempt.event.targets.zip keys⟩ postgres' staged failure := by
            refine applyPlans_together built distinct listed defined nodup targeted
              (fun plan member applies => ?_)
              ⟨rfl, rfl, fun target targeted => lookup_zip_of_mapM keyed targeted, stored⟩
              fun _ member => absurd member List.not_mem_nil
            exact outdated_of_plan (InMemoryEventSession.protocol sha256) _ built distinct listed
              (fun target aimed => (loads target aimed).imp fun _ all => ⟨all.1, all.2.1⟩)
              (targeted plan member) (decided plan member) applies
          have entries : ∀ entry ∈ staged, checkpointDocumentId sha256 entry.2 = some entry.1 ∧
              attempt.Builds sha256.hexdigest entry.2 ∧ ∀ current, records entry.1 = some current →
                current.sequence ≤ entry.2.sequence ∧
                  current.documentVersion ≤ entry.2.documentVersion := by
            intro entry member
            obtain ⟨target, -, here, named, builds, outdated⟩ := applied.entries entry member
            obtain ⟨digest, -, made⟩ := Option.map_eq_some_iff.mp builds
            refine ⟨?_, ⟨target, here, builds⟩, fun current found => ?_⟩
            · rw [← made]
              exact named
            · obtain ⟨-, -, older, earlier⟩ := outdated _ current named found
              rw [← made]
              exact ⟨older.le, earlier.le⟩
          have committed : (fun key => (staged.lookup key).or (records key)) =
              withSaved sha256 records (staged.map Prod.snd) := by
            funext key
            rw [lookup_staged fun entry member => (entries entry member).1]
            rfl
          have merged := commitStaged_of_newer applied.keys fun entry member =>
            (entries entry member).2.2
          rw [committed] at merged
          refine ⟨postgres'.rows, _, inMemoryScope_of_processed keyed
            (processV2Event_of_applied first applied.inMemory) merged,
            postgresScope_of_processed keyed (processV2Event_of_applied second applied.inPostgres)
              fun target => ?_, ?_, built.withSaved listed fun checkpoint saved => ?_, ?_⟩
          · intro refused
            cases failure with
            | none => cases refused
            | some error =>
                obtain rfl := Except.error.inj refused
                exact applied.progress.accepted target rfl
          · rw [← committed]
            exact applied.together.stored
          · obtain ⟨entry, member, rfl⟩ := List.mem_map.mp saved
            exact (entries entry member).2.1
          · unfold SavedInOrder
            rw [if_pos (by rw [List.length_map]; exact ended.mp rfl), ← aimed, List.zip_map',
              List.map_id']
            cases failure with
            | none => exact applied.progress
            | some error => exact applied.progress

end Agreement

/-! ## Runs -/

variable (sha256 : Sha256) (otherFormats : Text → Option Moment)

/-- The store in memory as a machine that processes attempts. -/
def inMemoryStep (records : CheckpointRecords) (attempt : Attempt table F) :
    Processed × CheckpointRecords := (inMemoryScope sha256 records attempt).swap

/-- The store in Postgres as a machine that processes attempts. -/
def postgresStep (returned : CheckpointRow → CheckpointRow) (rows : CheckpointRows)
    (attempt : Attempt table F) : Processed × CheckpointRows :=
  (postgresScope sha256 otherFormats returned rows attempt).swap

/-- **The checkpoint stores agree** on every run of attempts from empty stores: each attempt
has the same decisions, saved checkpoints, and result in both. What it has saved is in order,
up to a target that failed, and is kept: the records are the earlier ones with what was saved,
and the rows of Postgres are those of the records. -/
theorem checkpoint_stores_agree {returned : CheckpointRow → CheckpointRow}
    (returns : ∀ values, ReadBack values (returned values)) (attempts : List (Attempt table F))
    (distinct : KeysDistinct sha256 attempts) :
    answers (inMemoryStep sha256) (fun _ => none) attempts =
        answers (postgresStep sha256 otherFormats returned) (fun _ => none) attempts ∧
      ∀ before attempt after, attempts = before ++ attempt :: after →
        let records := run (fun records attempt => (inMemoryStep sha256 records attempt).2)
          (fun _ => none) before
        let rows := run (fun rows attempt =>
          (postgresStep sha256 otherFormats returned rows attempt).2) (fun _ => none) before
        let (processed, records') := inMemoryStep sha256 records attempt
        SavedInOrder sha256.hexdigest attempt processed ∧
          records' = withSaved sha256 records processed.saved ∧
          Stored sha256 otherFormats records'
            (postgresStep sha256 otherFormats returned rows attempt).2 := by
  have agree : ∀ attempt ∈ attempts, ∀ records rows, Stored sha256 otherFormats records rows →
      RecordsBuilt sha256 attempts records → ∃ processed,
        inMemoryStep sha256 records attempt =
          (processed, withSaved sha256 records processed.saved) ∧
        (postgresStep sha256 otherFormats returned rows attempt).1 = processed ∧
        Stored sha256 otherFormats (withSaved sha256 records processed.saved)
          (postgresStep sha256 otherFormats returned rows attempt).2 ∧
        RecordsBuilt sha256 attempts (withSaved sha256 records processed.saved) ∧
        SavedInOrder sha256.hexdigest attempt processed := by
    intro attempt listed records rows stored built
    obtain ⟨rows', processed, first, second, kept⟩ :=
      scopes_agree returns stored built distinct listed
    refine ⟨processed, ?_, ?_, ?_⟩
    · rw [inMemoryStep, first]
      rfl
    · rw [postgresStep, second]
      rfl
    · rw [postgresStep, second]
      exact kept
  have empty : Stored sha256 otherFormats (fun _ => none) fun _ => none := fun _ => rfl
  have unbuilt : RecordsBuilt sha256 attempts fun _ => none := fun _ _ found => by cases found
  constructor
  · refine answers_eq_of_lockstep (R := fun remaining records rows => remaining ⊆ attempts ∧
      Stored sha256 otherFormats records rows ∧ RecordsBuilt sha256 attempts records)
      (fun attempt remaining records rows related => ?_)
      ⟨List.Subset.refl attempts, empty, unbuilt⟩
    obtain ⟨listed, stored, built⟩ := related
    obtain ⟨processed, first, second, stored', built', -⟩ :=
      agree attempt (listed List.mem_cons_self) records rows stored built
    rw [first]
    exact ⟨second.symm, fun other member => listed (List.mem_cons_of_mem _ member), stored', built'⟩
  · rintro before attempt after split
    -- what the attempts before it leave
    have reached : ∀ done : List (Attempt table F), done ⊆ attempts → ∀ records rows,
        Stored sha256 otherFormats records rows → RecordsBuilt sha256 attempts records →
          Stored sha256 otherFormats
              (run (fun records attempt => (inMemoryStep sha256 records attempt).2) records done)
              (run (fun rows attempt => (postgresStep sha256 otherFormats returned rows attempt).2)
                rows done) ∧
            RecordsBuilt sha256 attempts
              (run (fun records attempt => (inMemoryStep sha256 records attempt).2) records
                done) := by
      intro done
      induction done with
      | nil => exact fun _ _ _ stored built => ⟨stored, built⟩
      | cons attempt done ih =>
          intro listed records rows stored built
          obtain ⟨processed, first, -, stored', built', -⟩ :=
            agree attempt (listed List.mem_cons_self) records rows stored built
          rw [run_cons, run_cons, first]
          exact ih (fun other member => listed (List.mem_cons_of_mem _ member)) _ _ stored' built'
    have within : before ⊆ attempts ∧ attempt ∈ attempts := by
      subst split
      exact ⟨List.subset_append_left _ _, List.mem_append_right _ List.mem_cons_self⟩
    obtain ⟨stored, built⟩ := reached before within.1 _ _ empty unbuilt
    obtain ⟨processed, first, -, stored', -, ordered⟩ :=
      agree attempt within.2 _ _ stored built
    simp only [first]
    exact ⟨ordered, trivial, stored'⟩

/-- A note, whose call fails at first and is then repeated. -/
def noteAttempts (event : IndexingEventV2 asciiTable SampleFloat)
    (after : 0 ≤ event.occurredAt.sinceEpoch) : List (Attempt asciiTable SampleFloat) :=
  [⟨event, fun _ => true, fun _ => false, fun _ => event.occurredAt, fun _ => after⟩,
    ⟨event, fun _ => true, fun _ => true, fun _ => event.occurredAt, fun _ => after⟩]

theorem checkpoint_stores_agree_note :
    ∃ (event : IndexingEventV2 asciiTable SampleFloat)
      (after : 0 ≤ event.occurredAt.sinceEpoch), parsedEvent (noteValue "hello") = some event ∧
      answers (inMemoryStep noteSha256) (fun _ => none) (noteAttempts event after) =
        answers (postgresStep noteSha256 (fun _ => none) id) (fun _ => none)
          (noteAttempts event after) := by
  have shown : (parsedEvent (noteValue "hello")).map (fun event =>
      decide (event.targets = [chars "default"] ∧ 0 ≤ event.occurredAt.sinceEpoch)) =
        some true := by decide +kernel
  obtain ⟨event, parsed, holds⟩ := Option.map_eq_some_iff.mp shown
  obtain ⟨targets, after⟩ := of_decide_eq_true holds
  refine ⟨event, after, parsed, (checkpoint_stores_agree noteSha256 (fun _ => none)
    ReadBack.refl (noteAttempts event after) ?_).1⟩
  have alike : ∀ attempt ∈ noteAttempts event after, attempt.event = event := by
    simp [noteAttempts]
  intro first listed second known target targeted other aimed _
  rw [alike first listed, targets, List.mem_singleton] at targeted
  rw [alike second known, targets, List.mem_singleton] at aimed
  rw [alike first listed, alike second known, targeted, aimed]

end ImposbroSearch.Indexing.EventEnvelope
