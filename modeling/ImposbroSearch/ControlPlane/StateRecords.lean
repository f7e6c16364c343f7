import ImposbroSearch.ControlPlane.StoreEffects

/-!
# Loading a committed state

A commit stores the state with the digest of its canonical text, and a load compares that
digest with the text of what the database returns. The two are the same when the database
has changed no number of the state.
-/

namespace ImposbroSearch.ControlPlane.AuditStore

open ImposbroSearch.Foundation

inductive LoadError where
  | unsupportedStateSchema (expected actual : ℤ)
  | unreadable
  | normalize (error : NormalizeError)
  | unencodable
  | stateIntegrity (revision : ℤ)
  deriving DecidableEq

section Load

variable {F : Type} [PyFloat F] (hash : List ℕ → Text)

/-- `_record_from_row` -/
def recordFromRow (row : StateRow) : Except LoadError (ControlPlaneRecord F) :=
  if row.schemaVersion ≠ currentStateSchemaVersion then
    .error (.unsupportedStateSchema currentStateSchemaVersion row.schemaVersion)
  else
    match Json.fromJsonb row.stateJson with
    | .error _ => .error .unreadable
    | .ok loaded =>
      match normalizeJsonObject loaded with
      | .error error => .error (.normalize error)
      | .ok state =>
        match canonicalStateDigest hash state with
        | none => .error .unencodable
        | some calculated =>
          if calculated ≠ row.stateDigest then .error (.stateIntegrity row.revision)
          else
            .ok
              { revision := row.revision
                schemaVersion := row.schemaVersion
                state
                stateDigest := row.stateDigest
                updatedAt := row.updatedAt }

/-- `load` -/
def Database.load (db : Database F) : Except LoadError (Option (ControlPlaneRecord F)) :=
  match db.state with
  | none => .ok none
  | some row =>
    match recordFromRow hash row with
    | .error error => .error error
    | .ok record => .ok (some record)

end Load

variable {F : Type} [PyFloat F] {hash : List ℕ → Text} {request : CommitRequest F}
  {prepared : PreparedCommit F} {now : Timestamp}

/-- What `commit` returns. -/
def committedRecord (request : CommitRequest F) (prepared : PreparedCommit F) (now : Timestamp) :
    ControlPlaneRecord F where
  revision := request.expectedRevision + 1
  schemaVersion := request.schemaVersion
  state := prepared.state
  stateDigest := prepared.stateDigest
  updatedAt := now

/-! ## Normalized objects -/

omit [PyFloat F] in
theorem isObject_sortKeys (v : Json F) : isObject (Json.sortKeys v) = isObject v := by
  unfold Json.sortKeys
  cases v with
  | object fields =>
      rw [Json.orderKeys_object]
      rfl
  | _ => rfl

theorem normalizeJsonObject_ok {v normalized : JsonValue F}
    (ok : normalizeJsonObject v = .ok normalized) : isObject v.json = true ∧ v.json.Dumpable ∧
      normalized.json = Json.sortKeys v.json := by
  unfold normalizeJsonObject at ok
  split_ifs at ok with object
  by_cases dumpable : v.json.Dumpable
  · rw [Json.normalize_eq dumpable] at ok
    exact ⟨object, dumpable, (congrArg JsonValue.json (Except.ok.inj ok)).symm⟩
  · rw [Json.normalize_eq_none dumpable] at ok
    cases ok

theorem normalizeJsonObject_eq {v : JsonValue F} (object : isObject v.json = true)
    (dumpable : v.json.Dumpable) : normalizeJsonObject v =
      .ok ⟨Json.sortKeys v.json, Json.unique_sortKeys.mpr v.unique⟩ := by
  unfold normalizeJsonObject
  rw [if_pos object, Json.normalize_eq dumpable]

/-- The digest of a state is that of its canonical text. -/
theorem canonicalStateDigest_eq {v : JsonValue F} (dumpable : v.json.Dumpable) :
    canonicalStateDigest hash v = digestOf hash (Json.print Json.compact (Json.sortKeys v.json)) := by
  unfold canonicalStateDigest
  rw [Json.normalize_eq dumpable, Option.bind_some,
    Json.canonicalJson_eq (Json.dumpable_sortKeys.mpr dumpable), Option.bind_some,
    Json.sortKeys_sortKeys v.unique]

theorem prepareCommit_ok (ok : prepareCommit hash request = .ok prepared) :
    request.schemaVersion = currentStateSchemaVersion ∧
      normalizeJsonObject request.state = .ok prepared.state ∧
      canonicalStateDigest hash prepared.state = some prepared.stateDigest := by
  unfold prepareCommit at ok
  split at ok
  · cases ok
  · split at ok
    · cases ok
    next same =>
      split at ok
      · cases ok
      · cases ok
      next state payload normalized _ =>
        split at ok
        · cases ok
        next digest hashed =>
          obtain rfl := (Except.ok.inj ok).symm
          exact ⟨not_not.mp same, normalized, hashed⟩

theorem nextStateRow_eq {row : StateRow} (built : nextStateRow request prepared now = some row) :
    ∃ stateJson, Json.toJsonb prepared.state = some stateJson ∧
      row = ⟨request.expectedRevision + 1, request.schemaVersion, stateJson, prepared.stateDigest,
        now⟩ := by
  unfold nextStateRow at built
  split_ifs at built
  obtain ⟨stateJson, stored, rfl⟩ := Option.map_eq_some_iff.mp built
  exact ⟨stateJson, stored, rfl⟩

/-! ## One row -/

/-- **A stored state** is loaded as it was committed exactly when the database keeps its
numbers. -/
theorem recordFromRow_iff {row : StateRow}
    (ready : prepareCommit hash request = .ok prepared)
    (built : nextStateRow request prepared now = some row) :
    recordFromRow hash row = .ok (committedRecord request prepared now) ↔
      request.state.json.Kept := by
  obtain ⟨schema, normalized, digest⟩ := prepareCommit_ok ready
  obtain ⟨object, dumpable, sorted⟩ := normalizeJsonObject_ok normalized
  obtain ⟨stateJson, stored, rfl⟩ := nextStateRow_eq built
  have dumpable' : prepared.state.json.Dumpable := by
    rw [sorted]
    exact Json.dumpable_sortKeys.mpr dumpable
  have kept : prepared.state.json.Kept ↔ request.state.json.Kept := by
    rw [sorted, Json.kept_sortKeys]
  have twice : Json.sortKeys prepared.state.json = prepared.state.json := by
    rw [sorted, Json.sortKeys_sortKeys request.state.unique]
  rw [← kept]
  unfold recordFromRow
  rw [if_neg (not_not.mpr schema)]
  constructor
  · intro loads
    split at loads
    · cases loads
    next loaded read =>
      rw [← Json.sortKeys_fromJsonb_iff dumpable' stored read]
      split at loads
      · cases loads
      next state normal =>
        obtain ⟨-, dumps, sameState⟩ := normalizeJsonObject_ok normal
        split at loads
        · cases loads
        next calculated hashed =>
          split_ifs at loads with differs
          have state_ := congrArg (fun record => record.state.json) (Except.ok.inj loads)
          rw [twice, ← sameState]
          exact state_
  · intro keeps
    obtain ⟨loaded, read⟩ := Json.fromJsonb_isOk dumpable' keeps stored
    have same := (Json.sortKeys_fromJsonb_iff dumpable' stored read).mpr keeps
    have loadedObject : isObject loaded.json = true := by
      rw [← isObject_sortKeys, same, twice, sorted, isObject_sortKeys, object]
    have loadedDumpable : loaded.json.Dumpable := by
      rw [← Json.dumpable_sortKeys, same]
      exact Json.dumpable_sortKeys.mpr dumpable'
    have state : (⟨Json.sortKeys loaded.json, Json.unique_sortKeys.mpr loaded.unique⟩ :
        JsonValue F) = prepared.state := JsonValue.ext (same.trans twice)
    rw [read]
    simp only
    rw [normalizeJsonObject_eq loadedObject loadedDumpable, state]
    simp only
    rw [digest]
    simp only
    rw [if_neg (not_not.mpr rfl)]
    rfl

/-! ## Runs -/

/-- The state row is that of a commit that was accepted. -/
def CommittedRow (hash : List ℕ → Text) (db : Database F) (request : CommitRequest F)
    (record : ControlPlaneRecord F) : Prop :=
  ∃ prepared now row, prepareCommit hash request = .ok prepared ∧
    nextStateRow request prepared now = some row ∧
    record = committedRecord request prepared now ∧ db.state = some row

/-- Every accepted commit has a revision of its own, and the last of them is stored. -/
structure Traced (hash : List ℕ → Text) (db : Database F) : Prop where
  accepted : ∀ request record, (.commit request, .committed record) ∈ db.outcomes →
    ∃ current ∈ db.latestRevision, record.revision ≤ current ∧
      (record.revision = current → CommittedRow hash db request record)
  stored : ∀ row ∈ db.state, ∃ request record,
    (.commit request, .committed record) ∈ db.outcomes ∧ record.revision = row.revision

omit [PyFloat F] in
theorem latestRevision_congr {db after : Database F} (state : after.state = db.state) :
    after.latestRevision = db.latestRevision := by
  unfold Database.latestRevision
  rw [state]

theorem CommittedRow.congr {db after : Database F} {request : CommitRequest F}
    {record : ControlPlaneRecord F} (state : after.state = db.state)
    (committed : CommittedRow hash db request record) : CommittedRow hash after request record := by
  unfold CommittedRow
  rw [state]
  exact committed

/-- A step that stores no state. -/
theorem Traced.unchanged {db after : Database F} (traced : Traced hash db)
    (state : after.state = db.state)
    (outcomes : ∀ request record, (.commit request, .committed record) ∈ after.outcomes →
      (.commit request, .committed record) ∈ db.outcomes)
    (kept : ∀ result ∈ db.outcomes, result ∈ after.outcomes) : Traced hash after where
  accepted request record member := by
    obtain ⟨current, latest, le, last⟩ := traced.accepted request record
      (outcomes request record member)
    rw [latestRevision_congr state]
    exact ⟨current, latest, le, fun same => (last same).congr state⟩
  stored row member := by
    rw [state] at member
    obtain ⟨request, record, before, same⟩ := traced.stored row member
    exact ⟨request, record, kept _ before, same⟩

theorem Traced.effect {db after : Database F} (traced : Traced hash db)
    (effect : Effect hash db after) : Traced hash after := by
  cases effect with
  | quiet state _ _ _ _ outcomes kept =>
      refine traced.unchanged state (fun request record member => ?_) kept
      exact (outcomes _ member).resolve_right (not_not.mpr trivial)
  | appended audit revision now row entry records state _ outcomes =>
      refine traced.unchanged state (fun request record member => ?_)
        fun result member => outcomes ▸ List.mem_append_left _ member
      rw [outcomes] at member
      rcases List.mem_append.mp member with before | single
      · exact before
      · cases List.mem_singleton.mp single
  | committed request prepared now stateRow row entry outbox eventId ready current builtState
      records builtOutbox fresh state outboxes outcomes =>
      obtain ⟨stateJson, -, rfl⟩ := nextStateRow_eq builtState
      have latest : after.latestRevision = some (request.expectedRevision + 1) := by
        unfold Database.latestRevision
        rw [state]
        rfl
      constructor
      case accepted =>
        intro other record member
        rw [outcomes] at member
        refine ⟨_, latest, ?_⟩
        rcases List.mem_append.mp member with before | single
        · obtain ⟨last, was, le, -⟩ := traced.accepted other record before
          rw [Option.mem_def.mp was] at current
          have same : last = request.expectedRevision := current
          exact ⟨by omega, fun equal => by omega⟩
        · obtain ⟨⟨⟩, ⟨⟩⟩ := Prod.mk.inj (List.mem_singleton.mp single)
          exact ⟨le_rfl, fun _ => ⟨prepared, now, _, ready, builtState, rfl, state⟩⟩
      case stored =>
        intro stored member
        rw [state] at member
        obtain rfl := Option.some.inj member
        refine ⟨request, committedRecord request prepared now, ?_, rfl⟩
        rw [outcomes]
        exact List.mem_append_right _ (List.mem_singleton.mpr rfl)

theorem traced_run (hash : List ℕ → Text) (actions : List (StoreAction F)) :
    Traced hash (run (Database.step hash) .empty actions) := by
  refine run_of_effect ?_ (fun _ _ traced effect => traced.effect effect) actions
  exact ⟨fun _ _ member => absurd member List.not_mem_nil, fun _ member => nomatch member⟩

/-- **A committed state is loaded back** by every later load, until another state is
committed, exactly when it holds no negative zero and no float of `10 ^ 16` or more; and
what is loaded is always a state that was committed. -/
theorem committed_state_loads_iff (hash : List ℕ → Text) (actions : List (StoreAction F)) :
    let db := run (Database.step hash) .empty actions
    (∀ request record, (.commit request, .committed record) ∈ db.outcomes →
      db.latestRevision = some record.revision →
        record.state.json = Json.sortKeys request.state.json ∧
          (db.load hash = .ok (some record) ↔ request.state.json.Kept)) ∧
      ∀ row ∈ db.state, ∃ request record,
        (.commit request, .committed record) ∈ db.outcomes ∧ record.revision = row.revision := by
  intro db
  have traced := traced_run hash actions
  refine ⟨fun request record accepted latest => ?_, traced.stored⟩
  obtain ⟨current, was, -, last⟩ := traced.accepted request record accepted
  obtain rfl : record.revision = current := Option.some.inj (latest.symm.trans was)
  obtain ⟨prepared, now, row, ready, built, rfl, state⟩ := last rfl
  refine ⟨(normalizeJsonObject_ok (prepareCommit_ok ready).2.1).2.2, ?_⟩
  rw [← recordFromRow_iff ready built]
  unfold Database.load
  rw [show db.state = some row from state]
  simp only
  constructor
  · intro loads
    split at loads
    · cases loads
    next record read =>
      obtain rfl := Option.some.inj (Except.ok.inj loads)
      exact read
  · intro read
    rw [read]

/-- A commit of `{"bound": 1e16}`. -/
def largeBoundCommit : CommitRequest SampleFloat where
  expectedRevision := 0
  state := ⟨.object [(chars "bound", .float (.large false))], by decide +kernel⟩
  audit := routingEvent
  eventType := chars "control_plane.updated"
  eventPayload := routingEvent.details
  schemaVersion := 1

/-- The commit, statement by statement. -/
def largeBoundRun : List (StoreAction SampleFloat) :=
  .start 0 (.commit largeBoundCommit) firstMidnight ::
    List.replicate 7 (.advance 0 firstId)

/-- The revision of a commit that was made. -/
def committedRevision (request : StoreRequest SampleFloat) (outcome : StoreOutcome SampleFloat) :
    Option ℤ :=
  match outcome with
  | .committed record =>
    match request with
    | .commit _ => some record.revision
    | .appendAudit _ _ => none
    | .markOutboxPublished _ _ => none
    | .recordOutboxFailure _ _ => none
  | .appended => none
  | .updated _ => none
  | .refused _ => none

theorem committedRevision_eq {request : StoreRequest SampleFloat}
    {outcome : StoreOutcome SampleFloat} {revision : ℤ}
    (made : committedRevision request outcome = some revision) :
    ∃ commit record, request = .commit commit ∧ outcome = .committed record ∧
      record.revision = revision := by
  cases outcome with
  | committed record =>
      cases request with
      | commit commit => exact ⟨commit, record, rfl, rfl, Option.some.inj made⟩
      | _ => cases made
  | _ => cases made

/-- A float of `10 ^ 16` comes back as an integer, and the digest is another one. -/
theorem large_bound_not_loaded :
    let db := run (Database.step id) .empty largeBoundRun
    ∃ request record, (.commit request, .committed record) ∈ db.outcomes ∧
      db.latestRevision = some record.revision ∧
        db.load id = .error (.stateIntegrity record.revision) := by
  intro db
  have latest : db.latestRevision = some 1 := by decide +kernel
  have loaded : (match db.load id with
      | .error (.stateIntegrity revision) => decide (revision = 1)
      | _ => false) = true := by decide +kernel
  have accepted : (db.outcomes.any fun result =>
      committedRevision result.1 result.2 = some 1) = true := by decide +kernel
  obtain ⟨⟨request, outcome⟩, member, made⟩ := List.any_eq_true.mp accepted
  obtain ⟨commit, record, rfl, rfl, one⟩ := committedRevision_eq (of_decide_eq_true made)
  refine ⟨commit, record, member, by rw [latest, one], ?_⟩
  split at loaded
  next actual found =>
    rw [found, of_decide_eq_true loaded, one]
  · cases loaded

end ImposbroSearch.ControlPlane.AuditStore
