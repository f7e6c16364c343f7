import ImposbroSearch.Indexing.CheckpointSessions
import ImposbroSearch.Publishing.Repair

/-!
# The checkpoint stores agree

The rows of Postgres are what the records in memory are stored as. A session loads the same
checkpoint from either, and a checkpoint that is saved is newer than the one that was loaded,
so neither store refuses it. What a scope has saved is there at its end, however it ends.

The hash does not collide on what is hashed: the keys of different identities and targets
differ.
-/

namespace ImposbroSearch.Indexing.EventEnvelope

open ImposbroSearch.Foundation ImposbroSearch.ControlPlane

variable {table : PrintableTable} {F : Type}

/-! ## Keys -/

theorem Identifier.separator_not_mem {pattern : NamePattern} (identifier : Identifier pattern)
    (excluded : pattern.allowed 31 = false) : 31 ∉ identifier.text := by
  intro member
  have matched := identifier.matched
  unfold NamePattern.fullmatch at matched
  simp only [Bool.and_eq_true, List.all_eq_true] at matched
  rw [matched.2 31 member] at excluded
  cases excluded

/-- The targets of an event have no separator. -/
theorem separator_not_mem_target {event : IndexingEventV2 table F} {target : Text}
    (targeted : target ∈ event.targets) : 31 ∉ target := by
  obtain ⟨cluster, -, rfl⟩ := List.mem_map.mp targeted
  exact cluster.separator_not_mem (by decide)

theorem logicalKey_eq (identity : EventIdentity table) : identity.logicalKey =
    (identity.tenantId.text ++ 31 :: identity.collection.text) ++
      31 :: identity.documentId.text := by
  simp [EventIdentity.logicalKey, List.intercalate]

/-- What is hashed for a key determines the identity and the target. -/
theorem material_inj {event event' : IndexingEventV2 table F} {target other : Text}
    (targeted : target ∈ event.targets) (targeted' : other ∈ event'.targets)
    (same : event.identity.logicalKey ++ 31 :: target =
      event'.identity.logicalKey ++ 31 :: other) :
    event.identity = event'.identity ∧ target = other := by
  obtain ⟨front, name⟩ := Publishing.cut_inj (separator_not_mem_target targeted)
    (separator_not_mem_target targeted') same
  rw [logicalKey_eq, logicalKey_eq] at front
  obtain ⟨front, document⟩ := Publishing.cut_inj
    (event.identity.documentId.separator_not_mem (by decide))
    (event'.identity.documentId.separator_not_mem (by decide)) front
  obtain ⟨tenant, collection⟩ := Publishing.cut_inj
    (event.identity.collection.separator_not_mem (by decide))
    (event'.identity.collection.separator_not_mem (by decide)) front
  exact ⟨EventIdentity.ext (SafeText.ext tenant) (Identifier.ext collection)
    (Identifier.ext document), name⟩

/-! ## Decisions -/

variable [PyFloat F] {hash : List ℕ → Text}

/-- **An event is applied** only over an older checkpoint. -/
theorem older_of_apply {event : IndexingEventV2 table F} {current : TargetCheckpoint}
    (applies : classifyEvent hash event (some current) = .ok .apply) :
    current.sequence < event.sequence.value ∧
      current.documentVersion < event.documentVersion.value := by
  simp only [classifyEvent] at applies
  split at applies
  · split at applies
    · split at applies
      · cases applies
      · split at applies
        · cases applies
        · cases applies
    · cases applies
  · split at applies
    · cases applies
    · split at applies
      · cases applies
      next notStale =>
        split at applies
        · cases applies
        next newer => exact ⟨by omega, by omega⟩

/-- What the planning says: the names of the targets that were reached, and the decision
about each from the checkpoint that was loaded. -/
theorem planTargets_spec {σ : Type} {session : EventCheckpointSession table F σ}
    {attempt : Attempt table F} {state : σ} {targets : List Text} :
    (planTargets hash session attempt state targets).1.map Prod.fst <+: targets ∧
      ∀ plan ∈ (planTargets hash session attempt state targets).1,
        ∃ checkpoint, session.load state attempt.event plan.1 = .ok checkpoint ∧
          classifyEvent hash attempt.event checkpoint = .ok plan.2 := by
  induction targets with
  | nil => exact ⟨List.prefix_refl _, fun plan member => absurd member List.not_mem_nil⟩
  | cons target targets ih =>
      unfold planTargets
      split
      · exact ⟨List.nil_prefix, fun plan member => absurd member List.not_mem_nil⟩
      · split
        · exact ⟨List.nil_prefix, fun plan member => absurd member List.not_mem_nil⟩
        next checkpoint loaded =>
          split
          · exact ⟨List.nil_prefix, fun plan member => absurd member List.not_mem_nil⟩
          next decision decided =>
            refine ⟨(List.prefix_cons_inj target).mpr ih.1, fun plan member => ?_⟩
            rcases List.mem_cons.mp member with rfl | later
            · exact ⟨checkpoint, loaded, decided⟩
            · exact ih.2 plan later

/-- Sessions that load the same plan the same. -/
theorem planTargets_congr {σ τ : Type} {first : EventCheckpointSession table F σ}
    {second : EventCheckpointSession table F τ} {attempt : Attempt table F} {state : σ}
    {other : τ} {targets : List Text}
    (same : ∀ target ∈ targets, first.load state attempt.event target =
      second.load other attempt.event target) :
    planTargets hash first attempt state targets =
      planTargets hash second attempt other targets := by
  induction targets with
  | nil => rfl
  | cons target targets ih =>
      unfold planTargets
      rw [same target List.mem_cons_self,
        ih fun target member => same target (List.mem_cons_of_mem _ member)]

/-! ## Rows of checkpoints -/

/-- A checkpoint that the processing of the attempt builds. -/
def Attempt.Builds (attempt : Attempt table F) (hash : List ℕ → Text)
    (checkpoint : TargetCheckpoint) : Prop :=
  ∃ target ∈ attempt.event.targets,
    checkpointFromEvent hash attempt.event target (attempt.clock target) = some checkpoint

/-- What is returned of a row may be the row as it was written. -/
theorem ReadBack.refl (values : List (Text × StoredValue)) : ReadBack values values where
  time _ moment _ found same := ⟨moment, found, same⟩
  same _ _ found _ := found

theorem Identifier.length_le {pattern : NamePattern} (identifier : Identifier pattern) :
    identifier.text.length ≤ pattern.longest := by
  have matched := identifier.matched
  unfold NamePattern.fullmatch at matched
  simp only [Bool.and_eq_true, decide_eq_true_eq] at matched
  exact matched.1.2

theorem CheckpointRow.hasText_of_lookup {row : CheckpointRow} {column : String} {maximum : ℕ}
    {text : Text} (found : row.lookup (chars column) = some (.text text))
    (short : text.length ≤ maximum) : row.hasText column maximum = true := by
  unfold hasText
  rw [found]
  exact decide_eq_true short

theorem CheckpointRow.hasInt_of_lookup {row : CheckpointRow} {column : String} {minimum value : ℤ}
    (found : row.lookup (chars column) = some (.int value)) (lower : minimum ≤ value)
    (upper : value ≤ maxInt64) : row.hasInt column minimum = true := by
  unfold hasInt
  rw [found]
  exact Bool.and_eq_true_iff.mpr ⟨decide_eq_true lower, decide_eq_true upper⟩

theorem length_of_isSha256 {digest : Text} (shape : isSha256 digest = true) :
    digest.length = 64 := by
  unfold isSha256 at shape
  simp only [Bool.and_eq_true, decide_eq_true_eq] at shape
  exact shape.1

theorem length_digestOf {sha256 : Sha256} {text digest : Text}
    (digested : digestOf sha256.hexdigest text = some digest) : digest.length = 64 := by
  obtain ⟨bytes, -, rfl⟩ := Option.map_eq_some_iff.mp digested
  exact length_of_isSha256 (sha256.shape bytes)

theorem allowed_operationText (operation : Operation) :
    ((operationText operation = chars "upsert" && !isRemoval (operationText operation)) ||
      (isRemoval (operationText operation) && isRemoval (operationText operation))) = true := by
  cases operation with
  | upsert => decide
  | delete => decide
  | tombstone => decide

/-- **The row of a checkpoint** that is built: it is defined, the table allows it, and it
holds the fields of the checkpoint. -/
theorem exists_row {sha256 : Sha256} (otherFormats : Text → Option Moment)
    {attempt : Attempt table F} {checkpoint : TargetCheckpoint}
    (builds : attempt.Builds sha256.hexdigest checkpoint) :
    ∃ key values, checkpointDocumentId sha256 checkpoint = some key ∧
      postgresCheckpointValues otherFormats sha256 checkpoint = some values ∧
      CheckpointRow.allowed values = true ∧
      Holds otherFormats checkpoint.targetCluster values checkpoint := by
  obtain ⟨target, targeted, built⟩ := builds
  have after := attempt.afterEpoch target
  obtain ⟨key, keyed⟩ := exists_checkpointDocumentId sha256 targeted built
  have stored : ∃ values,
      postgresCheckpointValues otherFormats sha256 checkpoint = some values := by
    obtain ⟨digest, -, rfl⟩ := Option.map_eq_some_iff.mp built
    unfold postgresCheckpointValues checkpointDocument
    rw [keyed, Option.map_some, Option.bind_some, fromisoformat_isoformat]
    exact ⟨_, rfl⟩
  obtain ⟨values, stored⟩ := stored
  have holds := holds_postgresCheckpointValues built stored (ReadBack.refl values)
  obtain ⟨distinct, documentId, same, member⟩ := postgresCheckpointValues_spec stored
  obtain rfl := Option.some.inj (keyed.symm.trans same)
  have found := (lookup_eq_some_iff_mem distinct).mpr member
  refine ⟨key, values, keyed, stored, ?_, ?_⟩
  · have long : key.length = 64 := length_digestOf keyed
    obtain ⟨digest, digested, rfl⟩ := Option.map_eq_some_iff.mp built
    have digest_long : digest.length = 64 := by
      obtain ⟨text, -, hashed⟩ := Option.bind_eq_some_iff.mp digested
      exact length_digestOf hashed
    obtain ⟨cluster, -, rfl⟩ := List.mem_map.mp targeted
    -- the widths are those of the patterns of the names
    have name : ∀ identifier : Identifier namePattern, identifier.text.length ≤ 128 :=
      fun identifier => identifier.length_le
    have document : attempt.event.identity.documentId.text.length ≤ 256 :=
      attempt.event.identity.documentId.length_le
    have eventId : attempt.event.eventId.text.length ≤ 128 := attempt.event.eventId.length_le
    have operation : (operationText attempt.event.operation).length ≤ 16 := by
      cases attempt.event.operation with
      | upsert => decide
      | delete => decide
      | tombstone => decide
    have rollout : ((attempt.event.rolloutId.map Identifier.text).getD []).length ≤ 128 := by
      cases attempt.event.rolloutId with
      | none => exact Nat.zero_le _
      | some rolloutId => exact name rolloutId
    unfold CheckpointRow.allowed
    rw [CheckpointRow.hasText_of_lookup found long.le,
      CheckpointRow.hasText_of_lookup holds.tenantId attempt.event.identity.tenantId.length_le,
      CheckpointRow.hasText_of_lookup holds.collection (name attempt.event.identity.collection),
      CheckpointRow.hasText_of_lookup holds.documentId document,
      CheckpointRow.hasText_of_lookup holds.targetCluster (name cluster),
      CheckpointRow.hasText_of_lookup holds.operation operation,
      CheckpointRow.hasText_of_lookup holds.eventId eventId,
      CheckpointRow.hasText_of_lookup holds.eventDigest digest_long.le,
      CheckpointRow.hasText_of_lookup holds.rolloutId rollout,
      CheckpointRow.hasInt_of_lookup holds.sequence attempt.event.sequence.bounds.1
        attempt.event.sequence.bounds.2,
      CheckpointRow.hasInt_of_lookup holds.documentVersion attempt.event.documentVersion.bounds.1
        attempt.event.documentVersion.bounds.2,
      CheckpointRow.hasInt_of_lookup holds.routingRevision attempt.event.routingRevision.bounds.1
        attempt.event.routingRevision.bounds.2,
      CheckpointRow.hasInt_of_lookup holds.appliedAtMs (milliseconds_nonneg after)
        ((milliseconds_le _ after).trans (by decide)),
      found, holds.eventDigest, holds.operation, holds.tombstone]
    simp only [long, digest_long, decide_true, Bool.true_and]
    exact allowed_operationText attempt.event.operation
  · obtain ⟨digest, -, rfl⟩ := Option.map_eq_some_iff.mp built
    exact holds

/-! ## Records and rows -/

section Agreement

variable (sha256 : Sha256) (otherFormats : Text → Option Moment)

/-- The hash does not collide on what the keys of the attempts are computed from. -/
def KeysDistinct (attempts : List (Attempt table F)) : Prop :=
  ∀ first ∈ attempts, ∀ second ∈ attempts, ∀ target ∈ first.event.targets,
    ∀ other ∈ second.event.targets,
      checkpointId sha256 first.event target = checkpointId sha256 second.event other →
        first.event.identity.logicalKey ++ 31 :: target =
          second.event.identity.logicalKey ++ 31 :: other

/-- The rows are those of the records. -/
def Stored (records : CheckpointRecords) (rows : CheckpointRows) : Prop :=
  ∀ key, rows key = (records key).bind (postgresCheckpointValues otherFormats sha256)

/-- Every record is under its key, and was built by one of the attempts. -/
def RecordsBuilt (attempts : List (Attempt table F)) (records : CheckpointRecords) : Prop :=
  ∀ key checkpoint, records key = some checkpoint →
    checkpointDocumentId sha256 checkpoint = some key ∧
      ∃ attempt ∈ attempts, attempt.Builds sha256.hexdigest checkpoint

variable {sha256 otherFormats} {attempts : List (Attempt table F)} {attempt : Attempt table F}
  {records : CheckpointRecords} {rows : CheckpointRows}

/-- The record under the key of an event and a target was built for an event of the same
identity, and for the target. -/
theorem RecordsBuilt.same (built : RecordsBuilt sha256 attempts records)
    (distinct : KeysDistinct sha256 attempts) (listed : attempt ∈ attempts) {target key : Text}
    (targeted : target ∈ attempt.event.targets)
    (keyed : checkpointId sha256 attempt.event target = some key) {checkpoint : TargetCheckpoint}
    (found : records key = some checkpoint) :
    ∃ builder ∈ attempts, builder.event.identity = attempt.event.identity ∧
      checkpointFromEvent sha256.hexdigest builder.event target (builder.clock target) =
        some checkpoint := by
  obtain ⟨named, builder, known, other, aimed, builds⟩ := built key checkpoint found
  have collides : checkpointId sha256 attempt.event target =
      checkpointId sha256 builder.event other := by
    obtain ⟨digest, -, rfl⟩ := Option.map_eq_some_iff.mp builds
    exact keyed.trans named.symm
  obtain ⟨identity, rfl⟩ := material_inj targeted aimed
    (distinct attempt listed builder known target targeted other aimed collides)
  exact ⟨builder, known, identity.symm, builds⟩

/-- **Both stores load the same.** -/
theorem load_eq_load {returned : CheckpointRow → CheckpointRow}
    (returns : ∀ values, ReadBack values (returned values))
    (stored : Stored sha256 otherFormats records rows)
    (built : RecordsBuilt sha256 attempts records) (distinct : KeysDistinct sha256 attempts)
    (listed : attempt ∈ attempts) {keys : List Text}
    (keyed : attempt.event.targets.mapM (checkpointId sha256 attempt.event) = some keys)
    {target : Text} (targeted : target ∈ attempt.event.targets) :
    ∃ key, checkpointId sha256 attempt.event target = some key ∧
      InMemoryEventSession.load sha256 ⟨attempt.event, records, []⟩ attempt.event target =
        .ok (records key) ∧
      PostgresEventSession.load otherFormats returned
        ⟨attempt.event, rows, attempt.event.targets.zip keys⟩ attempt.event target =
          .ok (records key) := by
  have defined : checkpointId sha256 attempt.event target ≠ none := by
    intro absent
    rw [mapM_eq_none.mpr ⟨target, targeted, absent⟩] at keyed
    cases keyed
  obtain ⟨key, here⟩ := Option.ne_none_iff_exists'.mp defined
  refine ⟨key, here, ?_, ?_⟩
  · unfold InMemoryEventSession.load
    rw [if_neg (by simp [targeted]), here]
    rfl
  · have locked := (lookup_zip_of_mapM keyed targeted).trans here
    unfold PostgresEventSession.load
    rw [if_neg (by simp)]
    simp only [locked, stored key]
    cases found : records key with
    | none => rfl
    | some checkpoint =>
        obtain ⟨builder, -, identity, builds⟩ := built.same distinct listed targeted here found
        obtain ⟨cluster, -, rfl⟩ := List.mem_map.mp targeted
        obtain ⟨values, row⟩ : ∃ values,
            postgresCheckpointValues otherFormats sha256 checkpoint = some values := by
          obtain ⟨-, other, -, builds⟩ := built key checkpoint found
          obtain ⟨_, values, -, row, -⟩ := exists_row otherFormats builds
          exact ⟨values, row⟩
        have read := checkpointFromDocument_of_holds (cluster.ne_nil Nat.one_pos)
          (builder.afterEpoch _) builds identity.symm
          (holds_postgresCheckpointValues builds row (returns values))
        simp only [Option.bind_some, row, read]

/-! ## Saving -/

variable (sha256 otherFormats attempt records) in
/-- What both sessions of an attempt hold. -/
structure Together (memory : InMemoryEventSession table F)
    (postgres : PostgresEventSession table F) : Prop where
  event : memory.event = attempt.event
  kept : memory.records = records
  locked : ∀ target ∈ attempt.event.targets,
    postgres.lockedKeys.lookup target = checkpointId sha256 attempt.event target
  stored : Stored sha256 otherFormats (fun key => (memory.staged.lookup key).or (records key))
    postgres.rows

variable (sha256 attempt records) in
/-- The record of the target is of the event's identity and target, and older. -/
def Outdated (target : Text) : Prop :=
  ∀ key current, checkpointId sha256 attempt.event target = some key →
    records key = some current →
      current.identityKey = attempt.event.identity.logicalKey ∧ current.targetCluster = target ∧
        current.sequence < attempt.event.sequence.value ∧
        current.documentVersion < attempt.event.documentVersion.value

theorem CheckpointRow.precedes_of_holds {target other : Text} {row values : CheckpointRow}
    {current checkpoint : TargetCheckpoint} (held : Holds otherFormats target row current)
    (holds : Holds otherFormats other values checkpoint)
    (identity : current.identityKey = checkpoint.identityKey)
    (aimed : current.targetCluster = checkpoint.targetCluster)
    (sequence : current.sequence < checkpoint.sequence)
    (version : current.documentVersion < checkpoint.documentVersion) :
    row.precedes values = true := by
  unfold precedes
  rw [held.identityKey, holds.identityKey, held.targetCluster, holds.targetCluster,
    held.sequence, holds.sequence, held.documentVersion, holds.documentVersion]
  simp [identity, aimed, sequence, version]

/-- **Both sessions save** a checkpoint over an older record. -/
theorem save_together {memory : InMemoryEventSession table F}
    {postgres : PostgresEventSession table F}
    (together : Together sha256 otherFormats attempt records memory postgres)
    (built : RecordsBuilt sha256 attempts records) {target key : Text}
    (targeted : target ∈ attempt.event.targets)
    (keyed : checkpointId sha256 attempt.event target = some key)
    (outdated : Outdated sha256 attempt records target)
    (fresh : memory.staged.lookup key = none) {checkpoint : TargetCheckpoint}
    (builds : checkpointFromEvent sha256.hexdigest attempt.event target (attempt.clock target) =
      some checkpoint) :
    ∃ postgres', InMemoryEventSession.save sha256 memory checkpoint =
        .ok { memory with staged := memory.staged ++ [(key, checkpoint)] } ∧
      PostgresEventSession.save sha256 otherFormats postgres checkpoint = .ok postgres' ∧
      Together sha256 otherFormats attempt records
        { memory with staged := memory.staged ++ [(key, checkpoint)] } postgres' := by
  obtain ⟨name, values, named, row, allowed, holds⟩ :=
    exists_row otherFormats ⟨target, targeted, builds⟩
  obtain ⟨aimed, identity, sequence, version⟩ : checkpoint.targetCluster = target ∧
      checkpoint.identityKey = attempt.event.identity.logicalKey ∧
      checkpoint.sequence = attempt.event.sequence.value ∧
      checkpoint.documentVersion = attempt.event.documentVersion.value := by
    obtain ⟨digest, -, rfl⟩ := Option.map_eq_some_iff.mp builds
    exact ⟨rfl, rfl, rfl, rfl⟩
  obtain rfl : name = key := by
    unfold checkpointDocumentId at named
    rw [identity, aimed] at named
    exact Option.some.inj (named.symm.trans keyed)
  have absent : ¬memory.staged.any fun old => old.1 = name := by
    intro listed
    obtain ⟨old, member, same⟩ := List.any_eq_true.mp listed
    rw [List.lookup_eq_none_iff] at fresh
    simpa [of_decide_eq_true same] using fresh old member
  have staged : assign Prod.fst memory.staged (name, checkpoint) =
      memory.staged ++ [(name, checkpoint)] := by
    unfold assign
    exact if_neg absent
  have advances : InMemoryEventSession.validateAdvance memory.records name checkpoint = .ok () := by
    unfold InMemoryEventSession.validateAdvance
    rw [together.kept]
    cases found : records name with
    | none => rfl
    | some current =>
        obtain ⟨-, -, older, earlier⟩ := outdated name current keyed found
        rw [← sequence] at older
        rw [← version] at earlier
        simp [older.ne', not_le.mpr older, not_le.mpr earlier]
  refine ⟨{ postgres with rows := Function.update postgres.rows name (some values) }, ?_, ?_,
    together.event, together.kept, together.locked, fun other => ?_⟩
  · unfold InMemoryEventSession.save
    rw [together.event, aimed, if_neg (by simp [targeted]), named]
    simp only [converted, bind, Except.bind, advances, staged]
  · have locked := (together.locked target targeted).trans keyed
    unfold PostgresEventSession.save
    rw [named, row, aimed, locked]
    have here := together.stored name
    simp only [fresh, Option.none_or] at here
    cases found : records name with
    | none =>
        rw [found, Option.bind_none] at here
        simp [converted, bind, Except.bind, allowed, here]
    | some current =>
        rw [found, Option.bind_some] at here
        obtain ⟨same, toward, older, earlier⟩ := outdated name current keyed found
        obtain ⟨-, builder, -, stale⟩ := built name current found
        obtain ⟨_, old, -, previous, -, held⟩ := exists_row otherFormats stale
        have newer : CheckpointRow.precedes old values = true :=
          CheckpointRow.precedes_of_holds held holds (same.trans identity.symm)
            (toward.trans aimed.symm) (sequence ▸ older) (version ▸ earlier)
        rw [previous] at here
        simp [converted, bind, Except.bind, allowed, here, newer]
  · by_cases same : other = name
    · subst same
      simp [List.lookup_append, fresh, row]
    · have apart : (other == name) = false := beq_eq_false_iff_ne.mpr same
      simp [List.lookup_append, List.lookup_cons, apart, same, together.stored other]

end Agreement

end ImposbroSearch.Indexing.EventEnvelope
