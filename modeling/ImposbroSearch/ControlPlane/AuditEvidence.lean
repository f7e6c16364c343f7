import ImposbroSearch.ControlPlane.AuditVerification

/-!
# The audit chain as evidence

Whatever the writers do, what they meant to record is a chain that ends in the head. So
the verifier accepts a table under that head exactly when the rows say, one by one, what
was recorded. The rows of the writers do, but for two losses: blanks that a column has cut
off, and floats that `JSONB` does not keep. And a record that is committed between the two
statements of the verifier looks to it like a truncated table.

The hash is not injective. What is needed is that no two of the texts that were hashed, by
the writers or by the verifier, have the same hash.
-/

namespace ImposbroSearch.ControlPlane

open ImposbroSearch.Foundation

variable {F : Type} [PyFloat F] {hash : List ℕ → Text}

/-! ## Hashed texts -/

/-- The bytes of which `audit_event_hash` takes the hash. -/
def AuditMaterial.bytes (material : AuditMaterial F) : Option (List ℕ) :=
  (Json.canonicalJson material.json).bind utf8Encode

theorem AuditMaterial.eventHash_eq (material : AuditMaterial F) :
    material.eventHash hash = (material.bytes).map hash := by
  unfold AuditMaterial.eventHash AuditMaterial.bytes digestOf
  rw [Option.map_bind]
  rfl

/-- A material of which the columns lose nothing. -/
structure AuditMaterial.Keepable (material : AuditMaterial F) : Prop where
  actor : material.actor.length ≤ 256
  action : material.action.length ≤ 128
  resourceType : material.resourceType.length ≤ 128
  resourceId : material.resourceId.length ≤ 512
  status : material.status.length ≤ 64
  requestId : material.requestId.length ≤ 128
  details : material.details.Kept

instance (material : AuditMaterial F) : Decidable material.Keepable :=
  decidable_of_iff (material.actor.length ≤ 256 ∧ material.action.length ≤ 128 ∧
      material.resourceType.length ≤ 128 ∧ material.resourceId.length ≤ 512 ∧
      material.status.length ≤ 64 ∧ material.requestId.length ≤ 128 ∧ material.details.Kept)
    ⟨fun ⟨actor, action, type, id, status, request, details⟩ =>
        ⟨actor, action, type, id, status, request, details⟩,
      fun keepable => ⟨keepable.actor, keepable.action, keepable.resourceType,
        keepable.resourceId, keepable.status, keepable.requestId, keepable.details⟩⟩

namespace AuditStore

/-- The texts that are hashed for some entries do not collide. -/
def NoCollision (hash : List ℕ → Text) (entries : List (AuditEntry F)) : Prop :=
  Set.InjOn hash {bytes | ∃ entry ∈ entries, entry.material.bytes = some bytes}

/-- Two entries say the same, up to the order of the keys in their details. -/
structure AuditEntry.Agrees (entry other : AuditEntry F) : Prop where
  material : entry.material.sorted = other.material.sorted
  eventHash : entry.eventHash = other.eventHash

/-- **Without a collision** entries with one hash say the same. -/
theorem NoCollision.sorted {entries : List (AuditEntry F)} (distinct : NoCollision hash entries)
    {entry other : AuditEntry F} (listed : entry ∈ entries) (member : other ∈ entries)
    {event : Text} (hashed : entry.material.eventHash hash = some event)
    (same : other.material.eventHash hash = some event) :
    entry.material.sorted = other.material.sorted := by
  rw [AuditMaterial.eventHash_eq] at hashed same
  obtain ⟨bytes, printed, rfl⟩ := Option.map_eq_some_iff.mp hashed
  obtain ⟨others, printed', equal⟩ := Option.map_eq_some_iff.mp same
  obtain rfl := distinct ⟨other, member, printed'⟩ ⟨entry, listed, printed⟩ equal
  have plain : ∀ material : AuditMaterial F, material.eventHash id = material.bytes := by
    intro material
    rw [AuditMaterial.eventHash_eq, Option.map_id]
    rfl
  exact AuditMaterial.eventHash_injective Function.injective_id entry.unique other.unique
    ((plain _).trans printed) ((plain _).trans printed')

/-! ## What was recorded -/

/-- A row that was written for an entry. -/
def Written (row : AuditRow) (entry : AuditEntry F) : Prop :=
  ∃ (details : JsonValue F) (detailsJson : Jsonb), isObject details.json = true ∧
    details.json.Dumpable ∧ entry.material.details = details.json ∧
    Json.toJsonb details = some detailsJson ∧
    auditColumns entry.material detailsJson entry.eventHash = some row

/-- **What the writers keep:** their entries are a chain that ends in the head, and each has
its row. -/
structure Recorded (hash : List ℕ → Text) (db : Database F) : Prop where
  chained : (entryChain F hash).Chained genesis db.history
  tip : (entryChain F hash).tip genesis db.history = db.head
  written : List.Forall₂ Written db.audit db.history

theorem recorded_empty : Recorded hash (Database.empty : Database F) := ⟨trivial, rfl, .nil⟩

theorem Recorded.records {db after : Database F} {audit : AuditEvent F} {revision : Option ℤ}
    {now : Timestamp} {row : AuditRow} {entry : AuditEntry F} (recorded : Recorded hash db)
    (records : Records hash db after audit revision now row entry) : Recorded hash after := by
  obtain ⟨eventId, built⟩ := records.built
  obtain ⟨details, detailsJson, normalized, material, hashed, stored, columns⟩ :=
    nextAuditRow_ok built
  obtain ⟨-, sequence, -, -, -, -, eventHash, -⟩ := auditColumns_eq columns
  have follows : (entryChain F hash).Follows db.head entry := by
    constructor
    · show entry.material.sequence = _
      rw [material]
      rfl
    · show entry.material.previousHash = _
      rw [material]
      rfl
    · exact hashed
  have written : Written row entry := by
    obtain ⟨object, dumpable, sorted⟩ := normalizeJsonObject_ok normalized
    refine ⟨details, detailsJson, ?_, ?_, ?_, stored, columns⟩
    · rw [sorted, isObject_sortKeys]
      exact object
    · rw [sorted]
      exact Json.dumpable_sortKeys.mpr dumpable
    · rw [material]
      rfl
  constructor
  case chained =>
    rw [records.history]
    exact recorded.chained.append (recorded.tip ▸ follows)
  case tip =>
    rw [records.history, ChainSchema.tip_append, records.head, sequence, eventHash]
    rfl
  case written =>
    rw [records.audit, records.history]
    exact List.rel_append recorded.written (.cons written .nil)

theorem Recorded.effect {db after : Database F} (recorded : Recorded hash db)
    (effect : Effect hash db after) : Recorded hash after := by
  cases effect with
  | quiet _ head audit history _ _ _ =>
      constructor
      case chained =>
        rw [history]
        exact recorded.chained
      case tip =>
        rw [history, head]
        exact recorded.tip
      case written =>
        rw [audit, history]
        exact recorded.written
  | appended audit revision now row entry records _ _ _ => exact recorded.records records
  | committed request prepared now stateRow row entry outbox eventId _ _ _ records _ _ _ _ _ =>
      exact recorded.records records

theorem recorded_run (hash : List ℕ → Text) (actions : List (StoreAction F)) :
    Recorded hash (run (Database.step hash) .empty actions) :=
  run_of_effect recorded_empty (fun _ _ recorded effect => recorded.effect effect) actions

/-! ## What a row says -/

/-- A row that says what was recorded. -/
def Tells (row : AuditRow) (entry : AuditEntry F) : Prop :=
  ∃ stands, row.entry = some stands ∧ stands.Agrees entry

omit [PyFloat F] in
/-- A column keeps what fits into it. -/
theorem column_eq_self {maximum : ℕ} {text stored : Text}
    (written : column maximum text = some stored) : stored = text ↔ text.length ≤ maximum := by
  unfold column at written
  split_ifs at written with storable fits blank
  · obtain rfl := Option.some.inj written
    exact iff_of_true rfl fits
  · obtain rfl := Option.some.inj written
    refine iff_of_false (fun same => fits ?_) fits
    rw [← same, List.length_take]
    exact Nat.min_le_left _ _

theorem normalizeDict_object {v : JsonValue F} (object : isObject v.json = true) :
    normalizeDict v = Json.normalize v := by
  obtain ⟨json, unique⟩ := v
  cases json with
  | object fields => rfl
  | _ => cases object

/-- Storage makes no object of anything else. -/
theorem isObject_throughStorage (v : Json F) (object : isObject v = true) :
    isObject v.throughStorage = true := by
  cases v with
  | object fields =>
      unfold Json.throughStorage
      rw [Json.mapNumbers_object]
      rfl
  | _ => cases object

theorem isObject_readNumbers (j : Json Numeric) (object : isObject j = true) :
    isObject (Json.readNumbers (F := F) j) = true := by
  cases j with
  | object fields =>
      unfold Json.readNumbers
      rw [Json.mapNumbers_object]
      rfl
  | _ => cases object

omit [PyFloat F] in
theorem AuditEntry.eq_of {entry other : AuditEntry F} (material : entry.material = other.material)
    (eventHash : entry.eventHash = other.eventHash) : entry = other := by
  cases entry
  cases other
  cases material
  cases eventHash
  rfl

/-- A material with the texts of a row and its details as they are loaded. -/
def AuditRow.through (row : AuditRow) (material : AuditMaterial F) (details : Json F) :
    AuditMaterial F :=
  { material with
    actor := row.actor
    action := row.action
    resourceType := row.resourceType
    resourceId := row.resourceId
    status := row.status
    requestId := row.requestId
    details := Json.sortKeys details }

/-- The entry of a row that was written, with what the columns and `JSONB` left of it. -/
theorem Written.entry_eq {row : AuditRow} {entry : AuditEntry F} (written : Written row entry)
    (stands : AuditEntry F) : row.entry = some stands ↔
      ∃ loaded : JsonValue F, Json.fromJsonb row.detailsJson = .ok loaded ∧
        loaded.json.Dumpable ∧ stands.eventHash = entry.eventHash ∧
        stands.material = row.through entry.material loaded.json := by
  obtain ⟨details, detailsJson, object, dumpable, same, stored, columns⟩ := written
  obtain ⟨id, sequence, revision, timestamp, json, previousHash, eventHash, -⟩ :=
    auditColumns_eq columns
  -- What is read of the details is an object.
  have loadedObject : ∀ loaded : JsonValue F, Json.fromJsonb row.detailsJson = .ok loaded →
      isObject loaded.json = true := by
    intro loaded read
    rw [json] at read
    rw [← isObject_sortKeys, Json.sortKeys_fromJsonb dumpable stored read]
    exact isObject_throughStorage _ (by rw [isObject_sortKeys, object])
  rw [AuditRow.entry_eq_some]
  constructor
  · rintro ⟨record, read, inside⟩
    obtain ⟨kept, normalized, material, event⟩ := AuditRecord.entry_some inside
    unfold AuditRow.read at read
    split at read
    · cases read
    next loaded loads =>
      obtain rfl := Except.ok.inj read
      rw [normalizeDict_object (loadedObject loaded loads)] at normalized
      have printable : loaded.json.Dumpable := by
        by_contra unprintable
        rw [Json.normalize_eq_none unprintable] at normalized
        cases normalized
      rw [Json.normalize_eq printable] at normalized
      obtain rfl := Option.some.inj normalized
      refine ⟨loaded, loads, printable, event.trans eventHash, ?_⟩
      rw [material]
      unfold AuditRecord.material AuditRow.through
      simp only [id, sequence, revision, timestamp, previousHash]
  · rintro ⟨loaded, loads, printable, event, material⟩
    unfold AuditRow.read
    rw [loads]
    refine ⟨_, rfl, ?_⟩
    unfold AuditRecord.entry
    rw [normalizeDict_object (loadedObject loaded loads), Json.normalize_eq printable]
    refine congrArg some (AuditEntry.eq_of ?_ (eventHash.trans event.symm))
    rw [material]
    unfold AuditRecord.material AuditRow.through
    simp only [id, sequence, revision, timestamp, previousHash]

/-- **A row that was written says what was recorded** exactly when nothing of it is lost. -/
theorem Written.tells_iff {row : AuditRow} {entry : AuditEntry F} (written : Written row entry) :
    Tells row entry ↔ entry.material.Keepable := by
  have stands := written.entry_eq
  obtain ⟨details, detailsJson, object, dumpable, same, stored, columns⟩ := written
  obtain ⟨-, -, -, -, json, -, -, actor, action, resourceType, resourceId, status, requestId⟩ :=
    auditColumns_eq columns
  rw [json] at stands
  have sorted : ∀ loaded : JsonValue F,
      (row.through entry.material loaded.json).sorted = entry.material.sorted ↔
        (row.actor = entry.material.actor ∧ row.action = entry.material.action ∧
          row.resourceType = entry.material.resourceType ∧
          row.resourceId = entry.material.resourceId ∧ row.status = entry.material.status ∧
          row.requestId = entry.material.requestId) ∧
        Json.sortKeys loaded.json = Json.sortKeys details.json := by
    intro loaded
    simp only [AuditMaterial.ext_iff, AuditMaterial.sorted, AuditRow.through, same,
      Json.sortKeys_sortKeys loaded.unique]
    tauto
  constructor
  · rintro ⟨other, found, agrees⟩
    obtain ⟨loaded, read, -, -, material⟩ := (stands other).mp found
    have agreed := agrees.material
    rw [material, sorted] at agreed
    obtain ⟨⟨actors, actions, types, ids, statuses, requests⟩, kept⟩ := agreed
    constructor
    case actor => exact (column_eq_self actor).mp actors
    case action => exact (column_eq_self action).mp actions
    case resourceType => exact (column_eq_self resourceType).mp types
    case resourceId => exact (column_eq_self resourceId).mp ids
    case status => exact (column_eq_self status).mp statuses
    case requestId => exact (column_eq_self requestId).mp requests
    case details =>
      rw [same]
      exact (Json.sortKeys_fromJsonb_iff dumpable stored read).mp kept
  · intro keepable
    have floats : details.json.Kept := same ▸ keepable.details
    obtain ⟨loaded, read⟩ := Json.fromJsonb_isOk dumpable floats stored
    have kept := (Json.sortKeys_fromJsonb_iff dumpable stored read).mpr floats
    have loads : loaded.json.Dumpable := by
      rw [← Json.dumpable_sortKeys, kept]
      exact Json.dumpable_sortKeys.mpr dumpable
    have unique : (row.through entry.material loaded.json).details.Unique :=
      Json.unique_sortKeys.mpr loaded.unique
    refine ⟨⟨_, unique, entry.eventHash⟩,
      (stands _).mpr ⟨loaded, read, loads, rfl, rfl⟩, (sorted loaded).mpr ⟨?_, kept⟩, rfl⟩
    exact ⟨(column_eq_self actor).mpr keepable.actor, (column_eq_self action).mpr keepable.action,
      (column_eq_self resourceType).mpr keepable.resourceType,
      (column_eq_self resourceId).mpr keepable.resourceId,
      (column_eq_self status).mpr keepable.status,
      (column_eq_self requestId).mpr keepable.requestId⟩

/-- A row with an object for its details is the row that was written for what it says. -/
theorem Tells.eq_of_written {row recorded : AuditRow} {entry : AuditEntry F} (told : Tells row entry)
    (written : Written recorded entry) (keepable : entry.material.Keepable)
    (whole : entry.material.details.Whole) (object : isObject row.detailsJson.value = true) :
    row = recorded := by
  obtain ⟨details, detailsJson, -, -, same, stored, columns⟩ := written
  obtain ⟨id, sequence, revision, timestamp, json, previousHash, eventHash, actor, action,
    resourceType, resourceId, status, requestId⟩ := auditColumns_eq columns
  obtain ⟨stands, found, agrees⟩ := told
  obtain ⟨record, read, inside⟩ := AuditRow.entry_eq_some.mp found
  obtain ⟨kept, normalized, material, event⟩ := AuditRecord.entry_some inside
  unfold AuditRow.read at read
  split at read
  · cases read
  next loaded loads =>
    obtain rfl := Except.ok.inj read
    have loadedObject : isObject loaded.json = true := by
      rw [(Json.fromJsonb_eq loads).2]
      exact isObject_readNumbers _ object
    rw [normalizeDict_object loadedObject] at normalized
    have printable : loaded.json.Dumpable := by
      by_contra unprintable
      rw [Json.normalize_eq_none unprintable] at normalized
      cases normalized
    rw [Json.normalize_eq printable] at normalized
    obtain rfl := Option.some.inj normalized
    have agreed := agrees.material
    rw [material] at agreed
    simp only [AuditMaterial.ext_iff, AuditMaterial.sorted, AuditRecord.material, same,
      Json.sortKeys_sortKeys loaded.unique] at agreed
    obtain ⟨ids, sequences, revisions, timestamps, actors, actions, types, resources, statuses,
      requests, values, links⟩ := agreed
    have stored_ := Json.eq_of_sortKeys_fromJsonb (same ▸ whole) stored loads values
    have hashes : row.eventHash = entry.eventHash := event.symm.trans agrees.eventHash
    rw [← (column_eq_self actor).mpr keepable.actor] at actors
    rw [← (column_eq_self action).mpr keepable.action] at actions
    rw [← (column_eq_self resourceType).mpr keepable.resourceType] at types
    rw [← (column_eq_self resourceId).mpr keepable.resourceId] at resources
    rw [← (column_eq_self status).mpr keepable.status] at statuses
    rw [← (column_eq_self requestId).mpr keepable.requestId] at requests
    rw [← id] at ids
    rw [← sequence] at sequences
    rw [← revision] at revisions
    rw [← timestamp] at timestamps
    rw [← previousHash] at links
    rw [← eventHash] at hashes
    rw [← json] at stored_
    cases row
    cases recorded
    simp only at *
    subst ids sequences revisions timestamps actors actions types resources statuses requests
    subst stored_ links hashes
    rfl

/-! ## What is accepted -/

/-- Entries that say the same are alike to the chain. -/
theorem AuditEntry.Agrees.alike {entry other : AuditEntry F} (agrees : entry.Agrees other) :
    (entryChain F hash).Alike entry other := by
  have sequence := congrArg AuditMaterial.sequence agrees.material
  have previousHash := congrArg AuditMaterial.previousHash agrees.material
  exact ⟨sequence, previousHash, agrees.eventHash,
    AuditMaterial.eventHash_congr agrees.material entry.unique other.unique⟩

omit [PyFloat F] in
theorem AuditEntry.Agrees.symm {entry other : AuditEntry F} (agrees : entry.Agrees other) :
    other.Agrees entry := ⟨agrees.material.symm, agrees.eventHash.symm⟩

/-- **Under the recorded head** those tables are accepted whose rows say, one by one, what
was recorded. -/
theorem Recorded.accepts_iff {db : Database F} (recorded : Recorded hash db)
    {rows : List AuditRow}
    (distinct : NoCollision hash (db.history ++ rows.filterMap AuditRow.entry)) :
    verifyAuditChain F hash rows (some db.head) = .ok () ↔
      List.Forall₂ Tells (bySequence rows) db.history := by
  rw [verifyAuditChain_eq_ok]
  constructor
  · rintro ⟨entries, stand, chained, tip⟩
    have ends : (entryChain F hash).tip genesis entries =
        (entryChain F hash).tip genesis db.history := tip.trans recorded.tip.symm
    have length : entries.length = db.history.length := by
      have numbers := congrArg ChainPoint.sequence ends
      rw [ChainSchema.tip_sequence chained, ChainSchema.tip_sequence recorded.chained] at numbers
      exact Nat.add_left_cancel numbers
    have hashed : ∀ entry ∈ entries, entry ∈ db.history ++ rows.filterMap AuditRow.entry := by
      intro entry member
      obtain ⟨row, listed, stands⟩ := forall₂_right_mem stand member
      have stored : row ∈ rows := (List.mem_insertionSort _).mp listed
      exact List.mem_append_right _ (List.mem_filterMap.mpr ⟨row, stored, stands⟩)
    have sorted : ∀ entry ∈ entries, ∀ other ∈ db.history, ∀ event,
        (entryChain F hash).calculate entry = some event →
        (entryChain F hash).calculate other = some event →
        entry.material.sorted = other.material.sorted := by
      intro entry listed other member event calculated same
      exact distinct.sorted (hashed entry listed) (List.mem_append_left _ member) calculated same
    have binds : (entryChain F hash).BindsLinks entries db.history := by
      intro entry listed other member event calculated same
      have link := congrArg AuditMaterial.previousHash
        (sorted entry listed other member event calculated same)
      exact link
    obtain ⟨-, pairs⟩ := chained.commits recorded.chained binds length
      (congrArg ChainPoint.hash ends)
    refine forall₂_comp.mp ⟨entries, stand, (forall₂_members pairs).imp ?_⟩
    rintro entry other ⟨listed, member, event, calculated, same⟩
    refine ⟨sorted entry listed other member event calculated same, ?_⟩
    have first := chained.calculated entry listed
    have second := recorded.chained.calculated other member
    rw [calculated] at first
    rw [same] at second
    exact (Option.some.inj first).symm.trans (Option.some.inj second)
  · intro told
    obtain ⟨entries, stand, agree⟩ := forall₂_comp.mpr told
    have alike : List.Forall₂ (entryChain F hash).Alike db.history entries :=
      agree.flip.imp fun _ _ agrees => agrees.symm.alike
    obtain ⟨chained, tip⟩ := recorded.chained.congr alike
    exact ⟨entries, stand, chained, tip.trans recorded.tip⟩

/-! ## Runs -/

omit [PyFloat F] in
/-- Only the recorded rows, in any order, are read as the recorded rows. -/
theorem Numbered.bySequence_eq_iff {db : Database F} (numbered : Numbered db)
    {rows : List AuditRow} : bySequence rows = db.audit ↔ rows.Perm db.audit := by
  have permuted : (bySequence rows).Perm rows := List.perm_insertionSort _ rows
  constructor
  · intro same
    exact same ▸ permuted.symm
  · intro others
    have stored := permuted.trans others
    have total : Std.Total fun first second : AuditRow => first.sequence ≤ second.sequence :=
      ⟨fun first second => le_total first.sequence second.sequence⟩
    have trans : IsTrans AuditRow fun first second => first.sequence ≤ second.sequence :=
      ⟨fun _ _ _ => le_trans⟩
    have ordered : (bySequence rows).Pairwise
        fun first second => first.sequence ≤ second.sequence :=
      List.pairwise_insertionSort _ rows
    refine stored.eq_of_pairwise ?_ ordered ?_
    · intro row other listed member before behind
      exact numbered.unique (stored.subset listed) member (le_antisymm before behind)
    · have ascending := List.pairwise_lt_range' (s := 1) (n := db.audit.length)
      rw [← numbered.sequences, List.pairwise_map] at ascending
      exact ascending.imp le_of_lt

theorem numbered_run (hash : List ℕ → Text) (actions : List (StoreAction F)) :
    Numbered (run (Database.step hash) .empty actions) :=
  run_of_effect numbered_empty (fun _ _ numbered effect => numbered.effect effect) actions

theorem Effect.history_prefix {db after : Database F} (effect : Effect hash db after) :
    db.history <+: after.history := by
  cases effect with
  | quiet _ _ _ history _ _ _ => rw [history]
  | appended audit revision now row entry records _ _ _ =>
      rw [records.history]
      exact List.prefix_append _ _
  | committed request prepared now stateRow row entry outbox eventId _ _ _ records _ _ _ _ _ =>
      rw [records.history]
      exact List.prefix_append _ _

/-- What is recorded stays recorded. -/
theorem recorded_prefix (hash : List ℕ → Text) (actions later : List (StoreAction F)) :
    let db := run (Database.step hash) .empty actions
    let after := run (Database.step hash) db later
    db.audit <+: after.audit ∧ db.history <+: after.history := by
  intro db after
  have kept : after.Sound hash ∧ db.audit <+: after.audit ∧ db.history <+: after.history := by
    refine run_invariant_always (I := fun state : Database F => state.Sound hash ∧
      db.audit <+: state.audit ∧ db.history <+: state.history) ?_
      ⟨sound_run hash actions, List.prefix_rfl, List.prefix_rfl⟩
    rintro state action ⟨sound, rows, entries⟩
    have effect := effect_step sound action
    exact ⟨sound.step action, rows.trans effect.audit_prefix, entries.trans effect.history_prefix⟩
  exact kept.2

/-- **Tampering shows.** Under the head of a run, the verifier accepts exactly the tables
whose rows say, in the order of their numbers, what was recorded. Where nothing was lost on
the way into the columns and no details hold floats, these are the recorded rows
themselves, as far as the details of each row are an object. -/
theorem verify_audit_chain_detects_tampering (hash : List ℕ → Text)
    (actions : List (StoreAction F)) (rows : List AuditRow) :
    let db := run (Database.step hash) .empty actions
    NoCollision hash (db.history ++ rows.filterMap AuditRow.entry) →
      (verifyAuditChain F hash rows (some db.head) = .ok () ↔
        List.Forall₂ Tells (bySequence rows) db.history) ∧
      ((∀ entry ∈ db.history, entry.material.Keepable ∧ entry.material.details.Whole) →
        (∀ row ∈ rows, isObject row.detailsJson.value = true) →
        (verifyAuditChain F hash rows (some db.head) = .ok () ↔ rows.Perm db.audit)) := by
  intro db distinct
  have recorded : Recorded hash db := recorded_run hash actions
  have numbered : Numbered db := numbered_run hash actions
  refine ⟨recorded.accepts_iff distinct, fun plain objects => ?_⟩
  rw [recorded.accepts_iff distinct, ← numbered.bySequence_eq_iff]
  constructor
  · intro told
    have same : List.Forall₂ Eq (bySequence rows) db.audit := by
      refine (forall₂_comp.mp ⟨_, forall₂_members told, recorded.written.flip⟩).imp ?_
      rintro row other ⟨entry, ⟨listed, member, tells⟩, written⟩
      have stored : row ∈ rows := (List.mem_insertionSort _).mp listed
      obtain ⟨keepable, whole⟩ := plain entry member
      exact tells.eq_of_written written keepable whole (objects row stored)
    rwa [List.forall₂_eq_eq_eq] at same
  · intro same
    rw [same, forall₂_iff_forall_mem recorded.written fun _ _ written => written.tells_iff]
    exact fun entry member => (plain entry member).1

def secondId : EventId := ⟨chars "e2", by decide, by decide +kernel⟩

/-- One audit record, statement by statement. -/
def recordedRun : List (StoreAction SampleFloat) :=
  .start 0 (.appendAudit routingEvent none) firstMidnight :: List.replicate 5 (.advance 0 firstId)

/-- The digest of the one text that the run hashes. -/
def recordedDigest (_ : List ℕ) : Text :=
  chars "1ca9525add8d6f1bc79625a09359c27825bbbe564d5141d7ad3007bfc193effd"

theorem noCollision_recordedRun :
    let db := run (Database.step recordedDigest) .empty recordedRun
    NoCollision recordedDigest (db.history ++ db.audit.filterMap AuditRow.entry) := by
  intro db
  have one : ((db.history ++ db.audit.filterMap AuditRow.entry).all fun entry =>
      entry.material.bytes = db.history.head?.bind fun first => first.material.bytes) = true := by
    decide +kernel
  have same := List.all_eq_true.mp one
  rintro bytes ⟨entry, listed, printed⟩ others ⟨other, member, printed'⟩ -
  have first := of_decide_eq_true (same entry listed)
  have second := of_decide_eq_true (same other member)
  exact Option.some.inj (printed.symm.trans (first.trans (second.symm.trans printed')))

theorem recordedRun_audit :
    let db := run (Database.step recordedDigest) .empty recordedRun
    db.audit.length = 1 ∧ (∀ entry ∈ db.history, entry.material.Keepable ∧
      entry.material.details.Whole) ∧ ∀ row ∈ db.audit, isObject row.detailsJson.value = true := by
  intro db
  exact ⟨by decide +kernel, by decide +kernel, by decide +kernel⟩

/-- The rows of a run are accepted, in whatever order they are selected. -/
theorem recordedRun_accepted :
    let db := run (Database.step recordedDigest) .empty recordedRun
    verifyAuditChain SampleFloat recordedDigest db.audit (some db.head) = .ok () := by
  intro db
  obtain ⟨-, plain, objects⟩ := recordedRun_audit
  have tampering := verify_audit_chain_detects_tampering recordedDigest recordedRun db.audit
    noCollision_recordedRun
  exact (tampering.2 plain objects).mpr (List.Perm.refl _)

/-- **The verifier and the writers.** The rows that a run has written are accepted, under
the head as it is some steps later, exactly when the columns have lost nothing of what was
recorded, and nothing has been recorded since. -/
theorem verify_audit_chain_accepts_history (hash : List ℕ → Text)
    (actions later : List (StoreAction F)) :
    let db := run (Database.step hash) .empty actions
    let after := run (Database.step hash) db later
    NoCollision hash (db.history ++ db.audit.filterMap AuditRow.entry) →
      (verifyAuditChain F hash db.audit (some after.head) = .ok () ↔
        (∀ entry ∈ db.history, entry.material.Keepable) ∧ after.audit = db.audit) := by
  intro db after distinct
  have recorded : Recorded hash db := recorded_run hash actions
  have numbered : Numbered db := numbered_run hash actions
  have whole : after = run (Database.step hash) .empty (actions ++ later) :=
    (run_append _ _ actions later).symm
  have recordedAfter : Recorded hash after := whole ▸ recorded_run hash (actions ++ later)
  have numberedAfter : Numbered after := whole ▸ numbered_run hash (actions ++ later)
  obtain ⟨rows, entries⟩ := recorded_prefix hash actions later
  -- Nothing new was recorded when the head has the number of the last row.
  have still : after.head.sequence = db.audit.length → after.audit = db.audit := by
    intro number
    rw [numberedAfter.length] at number
    exact (rows.eq_of_length number.symm).symm
  have head : after.audit = db.audit → after.head = db.head := by
    intro same
    have length : db.history.length = after.history.length := by
      rw [← recorded.written.length_eq, ← recordedAfter.written.length_eq, same]
    rw [← recorded.tip, ← recordedAfter.tip, entries.eq_of_length length]
  have own : verifyAuditChain F hash db.audit (some db.head) = .ok () ↔
      ∀ entry ∈ db.history, entry.material.Keepable := by
    rw [recorded.accepts_iff distinct, numbered.bySequence_eq_iff.mpr (List.Perm.refl _)]
    exact forall₂_iff_forall_mem recorded.written fun _ _ written => written.tells_iff
  constructor
  · intro accepted
    obtain ⟨stood, stand, chained, tip⟩ := verifyAuditChain_eq_ok.mp accepted
    have number : after.head.sequence = db.audit.length := by
      rw [← tip, ChainSchema.tip_sequence chained, ← stand.length_eq,
        numbered.bySequence_eq_iff.mpr (List.Perm.refl _)]
      exact Nat.zero_add _
    have same := still number
    rw [head same] at accepted
    exact ⟨own.mp accepted, same⟩
  · rintro ⟨keepable, same⟩
    rw [head same]
    exact own.mpr keepable

/-- A record that is committed in between is missed: the head is ahead of the rows. -/
theorem recordedRun_outrun :
    let db := run (Database.step recordedDigest) .empty recordedRun
    let after := run (Database.step recordedDigest) db
      (.start 1 (.appendAudit routingEvent none) firstMidnight ::
        List.replicate 5 (.advance 1 secondId))
    after.audit.length = 2 ∧
      verifyAuditChain SampleFloat recordedDigest db.audit (some after.head) ≠ .ok () := by
  intro db after
  have two : after.audit.length = 2 := by decide +kernel
  refine ⟨two, fun accepted => ?_⟩
  have same := ((verify_audit_chain_accepts_history recordedDigest recordedRun _
    noCollision_recordedRun).mp accepted).2
  have one : after.audit.length = 1 := (congrArg List.length same).trans recordedRun_audit.1
  omega

end AuditStore

end ImposbroSearch.ControlPlane
