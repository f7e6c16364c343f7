import ImposbroSearch.ControlPlane.AuditEvidence
import ImposbroSearch.ControlPlane.InMemoryStore
import ImposbroSearch.ControlPlane.RowLocks
import ImposbroSearch.Foundation.Linearization

/-!
# The Postgres store linearizes the in-memory store

Calls of the Postgres store overlap, statement by statement. What they are answered, but
for refusals, are the answers of the in-memory store to the same calls one after another,
in the order in which their transactions ended; and the tables hold what the in-memory
store then holds. A refusal leaves nothing behind.

The reverse does not hold. The in-memory store takes audit records about revisions that
are not committed, texts that are too long, and values that `JSONB` refuses.
-/

namespace ImposbroSearch.ControlPlane.AuditStore

open ImposbroSearch.Foundation

variable {F : Type}

section Lists

variable {α β γ : Type} {R : α → β → Prop} {firsts : List α} {lasts : List β}

/-- Related items of which the same is seen. -/
theorem map_eq_of_forall₂ {f : α → γ} {g : β → γ} (all : List.Forall₂ R firsts lasts)
    (same : ∀ first last, R first last → f first = g last) : firsts.map f = lasts.map g := by
  induction all with
  | nil => rfl
  | cons here rest ih => rw [List.map_cons, List.map_cons, same _ _ here, ih]

theorem any_eq_of_forall₂ {p : α → Bool} {q : β → Bool} (all : List.Forall₂ R firsts lasts)
    (same : ∀ first last, R first last → p first = q last) : firsts.any p = lasts.any q := by
  have seen := congrArg (List.any · id) (map_eq_of_forall₂ all same)
  simpa only [List.any_map, Function.id_comp] using seen

end Lists

/-! ## What the stores have in common -/

/-- A state row and the record it was written for. -/
structure StateRow.Holds [PyFloat F] (row : StateRow) (record : ControlPlaneRecord F) : Prop where
  revision : row.revision = record.revision
  schemaVersion : row.schemaVersion = record.schemaVersion
  state : Json.toJsonb record.state = some row.stateJson
  stateDigest : row.stateDigest = record.stateDigest
  updatedAt : row.updatedAt = record.updatedAt

/-- An outbox row and the record it was written for. -/
structure OutboxRow.Holds [PyFloat F] (row : OutboxRow) (record : OutboxRecord F) : Prop where
  eventId : row.id = record.eventId
  revision : row.revision = record.revision
  eventType : column 128 record.eventType = some row.eventType
  payload : Json.toJsonb record.payload = some row.payloadJson
  createdAt : row.createdAt = record.createdAt
  publishedAt : row.publishedAt = record.publishedAt
  lastError : row.lastError = record.lastError
  publishAttempts : row.publishAttempts = record.publishAttempts

/-- **The tables hold what the in-memory store holds.** -/
structure Database.Mirrors [PyFloat F] (db : Database F) (store : InMemoryControlPlaneStore F) :
    Prop where
  state : Option.Rel StateRow.Holds db.state store.record
  audit : store.audit = db.history
  auditHash : store.auditHash = db.head.hash
  outbox : List.Forall₂ OutboxRow.Holds db.outbox store.outbox

/-- An answer that is no refusal. -/
def StoreOutcome.accepts : StoreOutcome F → Bool
  | .refused _ => false
  | _ => true

/-- The calls that were not refused, with their answers, in the order in which they ended. -/
def Database.accepted (db : Database F) : List (StoreRequest F × StoreOutcome F) :=
  db.outcomes.filter fun result => result.2.accepts

/-- A call of the in-memory store and its answer. -/
def StoreCall.shown (call : StoreCall F) (outcome : StoreOutcome F) :
    StoreRequest F × StoreOutcome F := (call.request, outcome)

section Runs

variable [PyFloat F] {hash : List ℕ → Text} {db after : Database F} {id : ℕ} {t : Transaction F}

/-! ## Effects -/

omit [PyFloat F] in
theorem accepted_finish (outcome : StoreOutcome F) : (db.finish id t outcome).accepted =
    db.accepted ++ if outcome.accepts then [(t.request, outcome)] else [] := by
  show (db.outcomes ++ [(t.request, outcome)]).filter _ = _
  rw [List.filter_append, List.filter_singleton]
  cases outcome with
  | _ => rfl

/-- Tables that stay as they are. -/
theorem Database.Mirrors.congr {store : InMemoryControlPlaneStore F} (mirrors : db.Mirrors store)
    (state : after.state = db.state) (head : after.head = db.head)
    (history : after.history = db.history) (outbox : after.outbox = db.outbox) :
    after.Mirrors store where
  state := state ▸ mirrors.state
  audit := mirrors.audit.trans history.symm
  auditHash := mirrors.auditHash.trans (congrArg ChainPoint.hash head).symm
  outbox := outbox ▸ mirrors.outbox

theorem Database.Mirrors.latestRevision {store : InMemoryControlPlaneStore F}
    (mirrors : db.Mirrors store) : store.latestRevision = db.latestRevision := by
  have state := mirrors.state
  unfold InMemoryControlPlaneStore.latestRevision Database.latestRevision
  cases stored : db.state with
  | none =>
      rw [stored] at state
      cases held : store.record with
      | none => rfl
      | some record =>
          rw [held] at state
          cases state
  | some row =>
      rw [stored] at state
      cases held : store.record with
      | none =>
          rw [held] at state
          cases state
      | some record =>
          rw [held] at state
          cases state with
          | some holds => exact congrArg some holds.revision.symm

/-- **An update of a row** is one of its record. -/
theorem OutboxRow.Holds.update {row : OutboxRow} {record : OutboxRecord F}
    (holds : row.Holds record) {request : StoreRequest F} {eventId : Text}
    {replacement : OutboxRecord F → OutboxRecord F}
    (replaced : row.id = eventId → row.publishedAt = none →
      (Database.updateOutboxRow request row).Holds (replacement record))
    (asked : request.updates = some eventId) :
    (Database.updateOutboxRow request row).Holds
      (if (record.eventId = eventId && record.publishedAt.isNone) = true then replacement record
        else record) := by
  by_cases wanted : row.id = eventId ∧ row.publishedAt = none
  · rw [if_pos]
    · exact replaced wanted.1 wanted.2
    · rw [← holds.eventId, ← holds.publishedAt, wanted.1, wanted.2]
      simp
  · have kept : Database.updateOutboxRow request row = row := by
      by_cases same : row.id = eventId
      · have published : row.publishedAt ≠ none := fun none => wanted ⟨same, none⟩
        unfold Database.updateOutboxRow
        exact if_pos published
      · exact updateOutboxRow_other asked same
    rw [kept, if_neg]
    · exact holds
    · rw [← holds.eventId, ← holds.publishedAt]
      simpa [Option.isNone_iff_eq_none] using wanted

/-- What the update methods of the in-memory store answer. -/
theorem Database.Mirrors.updateOutbox {store : InMemoryControlPlaneStore F}
    (mirrors : db.Mirrors store) (distinct : db.Distinct) (eventId : Text)
    (replacement : OutboxRecord F → OutboxRecord F) :
    store.updateOutbox eventId replacement =
      if db.outbox.any fun row => row.id = eventId ∧ row.publishedAt = none then
        (.updated true, { store with
          outbox := store.outbox.map fun record =>
            if (record.eventId = eventId && record.publishedAt.isNone) = true then
              replacement record else record })
      else (.updated false, store) := by
  have ids : db.outbox.map OutboxRow.id = store.outbox.map OutboxRecord.eventId :=
    map_eq_of_forall₂ mirrors.outbox fun _ _ holds => holds.eventId
  have single : store.outbox.Pairwise fun first second =>
      ¬((first.eventId = eventId && first.publishedAt.isNone) = true ∧
        (second.eventId = eventId && second.publishedAt.isNone) = true) := by
    unfold Database.Distinct at distinct
    rw [ids] at distinct
    refine (List.pairwise_map.mp distinct).imp ?_
    rintro first second differs ⟨left, right⟩
    simp only [Bool.and_eq_true, decide_eq_true_eq] at left right
    exact differs (left.1.trans right.1.symm)
  have found : (db.outbox.any fun row => row.id = eventId ∧ row.publishedAt = none) =
      store.outbox.any fun record => record.eventId = eventId && record.publishedAt.isNone := by
    refine any_eq_of_forall₂ mirrors.outbox fun row record holds => ?_
    rw [holds.eventId, holds.publishedAt]
    cases record.publishedAt with
    | none => simp
    | some publishedAt => simp
  unfold InMemoryControlPlaneStore.updateOutbox
  simp only
  rw [replaceFirst_eq single, found]
  split_ifs
  · rfl
  · rfl

/-! ## Linearization points -/

/-- The in-memory store as a sequential object. -/
def answerCall (hash : List ℕ → Text) (store : InMemoryControlPlaneStore F) (call : StoreCall F) :
    StoreOutcome F × InMemoryControlPlaneStore F := store.perform hash call

/-- A step that takes effect as one call of the in-memory store at most. -/
def Linearized (hash : List ℕ → Text) (db after : Database F) : Prop :=
  TakesEffect (answerCall hash) StoreCall.shown Database.Mirrors Database.accepted db after

/-- A step that changes no table and answers no call. -/
theorem linearized_silent (state : after.state = db.state) (head : after.head = db.head)
    (history : after.history = db.history) (outbox : after.outbox = db.outbox)
    (accepted : after.accepted = db.accepted) : Linearized hash db after :=
  fun _ mirrors => Or.inl ⟨accepted, mirrors.congr state head history outbox⟩

theorem linearized_refuse (error : StoreError) : Linearized hash db (db.refuse id t error) := by
  refine linearized_silent rfl rfl rfl rfl ?_
  unfold Database.refuse
  rw [accepted_finish]
  exact List.append_nil _

/-- An id for the calls that draw none. -/
def noId : EventId := ⟨[], Nat.zero_le _, fun _ member => absurd member List.not_mem_nil⟩

/-- **An update takes effect** where its transaction ends. -/
theorem linearized_update {eventId : Text} (held : db.RowsHeld) (distinct : db.Distinct)
    (found : db.transactions id = some t) (asked : t.request.updates = some eventId)
    (move : UpdateMove db id t eventId after) : Linearized hash db after := by
  -- The call does to the record what the statement does to the row.
  have performs : ∃ replacement : OutboxRecord F → OutboxRecord F,
      (∀ store, answerCall hash store ⟨t.request, t.startedAt, noId, noId⟩ =
        store.updateOutbox eventId replacement) ∧
      ∀ (row : OutboxRow) (record : OutboxRecord F), row.Holds record → row.id = eventId →
        row.publishedAt = none →
          (Database.updateOutboxRow t.request row).Holds (replacement record) := by
    cases request : t.request with
    | commit => rw [request] at asked; cases asked
    | appendAudit => rw [request] at asked; cases asked
    | markOutboxPublished target publishedAt =>
        rw [request] at asked
        obtain rfl := Option.some.inj asked
        refine ⟨OutboxRecord.published publishedAt, fun store => rfl, ?_⟩
        intro row record holds same unpublished
        unfold Database.updateOutboxRow
        rw [if_neg (not_not.mpr unpublished)]
        simp only
        rw [if_pos same]
        exact { holds with
          publishedAt := rfl
          lastError := rfl
          publishAttempts := congrArg (· + 1) holds.publishAttempts }
    | recordOutboxFailure target error =>
        rw [request] at asked
        obtain rfl := Option.some.inj asked
        refine ⟨OutboxRecord.failed error, fun store => rfl, ?_⟩
        intro row record holds same unpublished
        unfold Database.updateOutboxRow
        rw [if_neg (not_not.mpr unpublished)]
        simp only
        rw [if_pos same]
        exact { holds with
          lastError := rfl
          publishAttempts := congrArg (· + 1) holds.publishAttempts }
  obtain ⟨replacement, performs, replaced⟩ := performs
  cases move with
  | wait => exact linearized_silent rfl rfl rfl rfl rfl
  | refuse error => exact linearized_refuse error
  | lockRow => exact linearized_silent rfl rfl rfl rfl rfl
  | notFound none_ =>
      intro store mirrors
      refine Or.inr ⟨⟨t.request, t.startedAt, noId, noId⟩, ?_⟩
      have missing : (db.outbox.any fun row => row.id = eventId ∧ row.publishedAt = none) =
          false := List.any_eq_false.mpr fun row stored => by simpa using none_ row stored
      rw [performs, mirrors.updateOutbox distinct, missing, accepted_finish]
      exact ⟨rfl, mirrors.congr rfl rfl rfl rfl⟩
  | update here =>
      intro store mirrors
      refine Or.inr ⟨⟨t.request, t.startedAt, noId, noId⟩, ?_⟩
      obtain ⟨target, same, -, row, stored, named, unpublished⟩ := held id t found here
      obtain rfl : eventId = target := Option.some.inj (asked.symm.trans same)
      have present : (db.outbox.any fun row => row.id = eventId ∧ row.publishedAt = none) =
          true := List.any_eq_true.mpr ⟨row, stored, decide_eq_true ⟨named, unpublished⟩⟩
      rw [performs, mirrors.updateOutbox distinct, present, accepted_finish]
      refine ⟨rfl, mirrors.state, mirrors.audit, mirrors.auditHash, ?_⟩
      show List.Forall₂ _ (db.outbox.map _) (store.outbox.map _)
      rw [List.forall₂_map_left_iff, List.forall₂_map_right_iff]
      exact mirrors.outbox.imp fun row record holds =>
        holds.update (replaced row record holds) asked

/-- The in-memory store builds the entry of the row that the other one builds. -/
theorem buildAuditRecord_eq {store : InMemoryControlPlaneStore F} {head : ChainPoint Text}
    {audit : AuditEvent F} {revision : Option ℤ} {now : Timestamp} {eventId : EventId}
    {row : AuditRow} {entry : AuditEntry F} (point : ⟨store.audit.length, store.auditHash⟩ = head)
    (built : nextAuditRow hash head audit revision now eventId = .ok (row, entry)) :
    store.buildAuditRecord hash audit revision now eventId = .ok entry := by
  obtain ⟨details, detailsJson, normalized, material, hashed, -, -⟩ := nextAuditRow_ok built
  rw [material] at hashed
  unfold InMemoryControlPlaneStore.buildAuditRecord
  rw [normalized, point]
  simp only
  rw [hashed]
  exact congrArg Except.ok (AuditEntry.eq_of material.symm rfl)

/-- A commit that is prepared has passed every check before the transaction. -/
theorem prepareCommit_payload {request : CommitRequest F} {prepared : PreparedCommit F}
    (ok : prepareCommit hash request = .ok prepared) :
    normalizeJsonObject request.eventPayload = .ok prepared.payload := by
  unfold prepareCommit at ok
  split at ok
  · cases ok
  · split at ok
    · cases ok
    · split at ok
      · cases ok
      · cases ok
      next state payload _ normalized =>
        split at ok
        · cases ok
        · obtain rfl := (Except.ok.inj ok).symm
          exact normalized

/-- **What a record of an audit event takes effect as.** -/
theorem linearized_effect (recorded : Recorded hash db) (effect : Effect hash db after)
    (records : after.history ≠ db.history) : Linearized hash db after := by
  intro store mirrors
  have point : (⟨store.audit.length, store.auditHash⟩ : ChainPoint Text) = db.head := by
    have number := ChainSchema.tip_sequence recorded.chained
    rw [recorded.tip, ← mirrors.audit] at number
    rw [mirrors.auditHash, ← show db.head.sequence = store.audit.length from
      number.trans (Nat.zero_add _)]
  have audits : ∀ {row : AuditRow} {entry : AuditEntry F} {audit : AuditEvent F}
      {revision : Option ℤ} {now : Timestamp},
      Records hash db after audit revision now row entry →
        (store.withAudit entry).audit = after.history ∧
          (store.withAudit entry).auditHash = after.head.hash := by
    intro row entry audit revision now records
    obtain ⟨eventId, built⟩ := records.built
    obtain ⟨details, detailsJson, -, -, -, -, columns⟩ := nextAuditRow_ok built
    obtain ⟨-, -, -, -, -, -, eventHash, -⟩ := auditColumns_eq columns
    constructor
    · rw [records.history, ← mirrors.audit]
      rfl
    · rw [records.head]
      exact eventHash.symm
  cases effect with
  | quiet _ _ _ history _ _ _ => exact absurd history records
  | appended audit revision now row entry records state outbox outcomes =>
      obtain ⟨eventId, built⟩ := records.built
      refine Or.inr ⟨⟨.appendAudit audit revision, now, eventId, noId⟩, ?_⟩
      have answer : answerCall hash store ⟨.appendAudit audit revision, now, eventId, noId⟩ =
          (.appended, store.withAudit entry) := by
        show store.appendAudit hash audit revision now eventId = _
        unfold InMemoryControlPlaneStore.appendAudit
        rw [buildAuditRecord_eq point built]
      rw [answer]
      constructor
      · unfold Database.accepted
        rw [outcomes, List.filter_append]
        rfl
      · exact ⟨state ▸ mirrors.state, (audits records).1, (audits records).2,
          outbox ▸ mirrors.outbox⟩
  | committed request prepared now stateRow row entry outbox outboxId ready current builtState
      records builtOutbox fresh state outboxes outcomes =>
      obtain ⟨eventId, built⟩ := records.built
      refine Or.inr ⟨⟨.commit request, now, eventId, outboxId⟩, ?_⟩
      obtain ⟨schema, normalized, digest⟩ := prepareCommit_ok ready
      let record := committedRecord request prepared now
      let outboxRecord : OutboxRecord F :=
        { eventId := outboxId.text
          revision := request.expectedRevision + 1
          eventType := request.eventType
          payload := outboxPayload request prepared
          createdAt := now }
      have actual : store.latestRevision.getD 0 = request.expectedRevision := by
        rw [mirrors.latestRevision]
        exact current
      have answer : answerCall hash store ⟨.commit request, now, eventId, outboxId⟩ =
          (.committed record, { store.withAudit entry with
            record := some record
            outbox := store.outbox ++ [outboxRecord] }) := by
        show store.commit hash request now eventId outboxId = _
        unfold InMemoryControlPlaneStore.commit
        rw [if_neg (not_not.mpr schema), normalized, prepareCommit_payload ready]
        simp only
        unfold InMemoryControlPlaneStore.commitPrepared
        simp only [actual]
        rw [if_neg (not_not.mpr rfl), digest]
        simp only
        rw [buildAuditRecord_eq point built]
        rfl
      rw [answer]
      constructor
      · unfold Database.accepted
        rw [outcomes, List.filter_append]
        rfl
      · obtain ⟨stateJson, stored, rfl⟩ := nextStateRow_eq builtState
        refine ⟨?_, (audits records).1, (audits records).2, ?_⟩
        · rw [state]
          exact .some ⟨rfl, rfl, stored, rfl, rfl⟩
        · rw [outboxes]
          refine List.rel_append mirrors.outbox (.cons ?_ .nil)
          unfold nextOutboxRow at builtOutbox
          split at builtOutbox
          next eventType payloadJson typed encoded =>
            obtain rfl := Option.some.inj builtOutbox
            exact ⟨rfl, rfl, typed, encoded, rfl, rfl, rfl, rfl⟩
          · cases builtOutbox

/-- A commit or an audit record is never answered as an update. -/
theorem outcomes_advance (hash : List ℕ → Text) (eventId : EventId)
    (found : db.transactions id = some t) (writes : t.request.auditEvent ≠ none)
    (answer : Bool) :
    (db.advance id hash eventId).outcomes ≠ db.outcomes ++ [(t.request, .updated answer)] := by
  have same : db.outcomes ≠ db.outcomes ++ [(t.request, .updated answer)] := by
    intro equal
    have length := congrArg List.length equal
    simp at length
  have other : ∀ outcome : StoreOutcome F, (∀ answer, outcome ≠ .updated answer) →
      db.outcomes ++ [(t.request, outcome)] ≠ db.outcomes ++ [(t.request, .updated answer)] := by
    intro outcome differs equal
    have last := List.append_cancel_left equal
    simp only [List.cons.injEq, Prod.mk.injEq, and_true, true_and] at last
    exact differs answer last
  have refused : ∀ error : StoreError,
      db.outcomes ++ [(t.request, .refused error)] ≠
        db.outcomes ++ [(t.request, .updated answer)] :=
    fun error => other _ fun _ equal => nomatch equal
  have state : ∀ (request : CommitRequest F) (prepared : PreparedCommit F),
      (db.advanceState id t request prepared).outcomes ≠
        db.outcomes ++ [(t.request, .updated answer)] := by
    intro request prepared
    unfold Database.advanceState
    repeat' split
    all_goals first | exact same | exact refused _
  have audit : ∀ (event : AuditEvent F) (revision : Option ℤ)
      (behind : AuditRow → AuditEntry F → Statement F),
      (db.advanceAudit id t hash event revision eventId behind).outcomes ≠
        db.outcomes ++ [(t.request, .updated answer)] := by
    intro event revision behind
    unfold Database.advanceAudit
    repeat' split
    all_goals first | exact same | exact refused _
  unfold Database.advance
  rw [found]
  simp only
  split
  next request prepared asked ready =>
    unfold Database.advanceCommit
    repeat' split
    all_goals first
      | exact same
      | exact refused _
      | exact state request prepared
      | exact audit _ _ _
      | exact other _ fun _ equal => nomatch equal
  next event revision _ asked =>
    unfold Database.advanceAppend
    repeat' split
    all_goals first
      | exact same
      | exact refused _
      | exact audit _ _ _
      | exact other _ fun _ equal => nomatch equal
  next target publishedAt _ asked => exact absurd (by rw [asked]; rfl) writes
  next target error _ asked => exact absurd (by rw [asked]; rfl) writes
  · exact same

/-- **Every step** takes effect as one call at most. -/
theorem linearized_step (sound : db.Sound hash) (recorded : Recorded hash db)
    (held : db.RowsHeld) (distinct : db.Distinct) (action : StoreAction F) :
    Linearized hash db (db.step hash action) := by
  cases action with
  | start id request now =>
      show Linearized hash db (db.start id hash request now)
      unfold Database.start
      simp only
      split
      · exact linearized_silent rfl rfl rfl rfl rfl
      · split
        · split
          · refine linearized_silent rfl rfl rfl rfl ?_
            unfold Database.accepted
            rw [List.filter_append]
            exact List.append_nil _
          · exact linearized_silent rfl rfl rfl rfl rfl
        · exact linearized_silent rfl rfl rfl rfl rfl
  | abort id =>
      show Linearized hash db (db.abort id)
      unfold Database.abort
      split
      · exact linearized_silent rfl rfl rfl rfl rfl
      · exact linearized_refuse _
  | advance id eventId =>
      cases found : db.transactions id with
      | none =>
          show Linearized hash db (db.advance id hash eventId)
          unfold Database.advance
          rw [found]
          exact linearized_silent rfl rfl rfl rfl rfl
      | some t =>
          rcases advance_cases eventId (sound id t found) found with
            ⟨writes, move⟩ | ⟨target, asked, move⟩
          · have effect := effect_move (sound id t found) move
            have answers := outcomes_advance hash eventId found writes
            show Linearized hash db (db.advance id hash eventId)
            generalize db.advance id hash eventId = after at move effect answers
            cases move with
            | wait => exact linearized_silent rfl rfl rfl rfl rfl
            | refuse error => exact linearized_refuse error
            | notFound => exact absurd rfl (answers false)
            | chooseState => exact linearized_silent rfl rfl rfl rfl rfl
            | checked => exact linearized_silent rfl rfl rfl rfl rfl
            | lockState => exact linearized_silent rfl rfl rfl rfl rfl
            | lockHead => exact linearized_silent rfl rfl rfl rfl rfl
            | buildAudit => exact linearized_silent rfl rfl rfl rfl rfl
            | moveHead => exact linearized_silent rfl rfl rfl rfl rfl
            | buildOutbox => exact linearized_silent rfl rfl rfl rfl rfl
            | record row entry outbox outcome here ends =>
                refine linearized_effect recorded effect fun same => ?_
                have length := congrArg List.length same
                have longer : (db.history ++ [entry]).length = db.history.length := length
                simp at longer
            | lockRow eventId asked => exact absurd asked writes
            | update asked => exact absurd asked writes
          · exact linearized_update held distinct found asked move

/-- **The Postgres store linearizes the in-memory store.** In every run, however its calls
overlap, fail or are rolled back, what was accepted is what the in-memory store answers to
some calls one after another, and the tables hold what it then holds. -/
theorem postgres_linearizes_in_memory (hash : List ℕ → Text) (actions : List (StoreAction F)) :
    Linearizes (answerCall hash) StoreCall.shown Database.Mirrors Database.accepted
      InMemoryControlPlaneStore.empty (run (Database.step hash) .empty actions) := by
  refine run_linearizes (I := fun db : Database F => (db.Sound hash ∧ Recorded hash db) ∧
    db.RowsHeld ∧ db.Distinct) ?_ ?_ ?_ ?_ rfl actions
  · rintro db action ⟨⟨sound, recorded⟩, held, distinct⟩
    exact linearized_step sound recorded held distinct action
  · rintro db action ⟨⟨sound, recorded⟩, held, distinct⟩
    have effect := effect_step sound action
    exact ⟨⟨sound.step action, recorded.effect effect⟩, held.step sound action,
      distinct.effect effect⟩
  · refine ⟨⟨sound_empty, recorded_empty⟩, ?_, List.nodup_nil⟩
    intro id t here
    cases here
  · exact ⟨.none, rfl, rfl, .nil⟩

end Runs

end ImposbroSearch.ControlPlane.AuditStore
