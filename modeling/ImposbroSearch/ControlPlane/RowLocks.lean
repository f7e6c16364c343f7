import ImposbroSearch.ControlPlane.StoreEffects

/-!
# Row locks of the control-plane store

An update locks the outbox row that it is about, if that is not published, and changes it
when its transaction ends. In between nobody else can publish it: the row is there and
unpublished as long as the lock is held.
-/

namespace ImposbroSearch.ControlPlane.AuditStore

open ImposbroSearch.Foundation

variable {F : Type}

/-! ## Updates -/

/-- The row that a request updates. -/
def StoreRequest.updates : StoreRequest F → Option Text
  | .markOutboxPublished eventId _ => some eventId
  | .recordOutboxFailure eventId _ => some eventId
  | _ => none

/-- A transaction that is about to commit an update has the row locked, unpublished. -/
def Database.RowsHeld (db : Database F) : Prop :=
  ∀ id t, db.transactions id = some t → t.next = .commitRow →
    ∃ eventId, t.request.updates = some eventId ∧ db.rowLocks eventId = some id ∧
      ∃ row ∈ db.outbox, row.id = eventId ∧ row.publishedAt = none

/-- No two outbox rows have one id. -/
def Database.Distinct (db : Database F) : Prop := (db.outbox.map OutboxRow.id).Nodup

/-- The statements of an update. -/
inductive UpdateMove (db : Database F) (id : ℕ) (t : Transaction F) (eventId : Text) :
    Database F → Prop
  | wait : UpdateMove db id t eventId db
  | refuse (error : StoreError) : UpdateMove db id t eventId (db.refuse id t error)
  | notFound
      (none_ : ∀ row ∈ db.outbox, ¬(row.id = eventId ∧ row.publishedAt = none)) :
      UpdateMove db id t eventId (db.finish id t (.updated false))
  | lockRow (row : OutboxRow) (stored : row ∈ db.outbox) (same : row.id = eventId)
      (unpublished : row.publishedAt = none) (free : ¬LockedByOther (db.rowLocks eventId) id) :
      UpdateMove db id t eventId
        { db.goOn id t .commitRow with
          rowLocks := fun other => if other = eventId then some id else db.rowLocks other }
  | update (here : t.next = .commitRow) :
      UpdateMove db id t eventId
        ({ db with outbox := db.outbox.map (Database.updateOutboxRow t.request) }.finish id t
          (.updated true))

theorem updateMove_advanceUpdate (db : Database F) (id : ℕ) (t : Transaction F) (eventId : Text) :
    UpdateMove db id t eventId (db.advanceUpdate id t eventId) := by
  unfold Database.advanceUpdate
  split
  · split
    · exact .refuse _
    · split
      next found =>
        obtain ⟨row, stored, matches_⟩ := List.any_eq_true.mp found
        obtain ⟨same, unpublished⟩ := of_decide_eq_true matches_
        split_ifs with locked
        · exact .wait
        · exact .lockRow row stored same unpublished locked
      next missing =>
        refine .notFound fun row stored both => ?_
        exact List.any_eq_false.mp (Bool.eq_false_iff.mpr missing) row stored
          (decide_eq_true both)
  next here => exact .update here
  · exact .wait

/-! ## What a step leaves alone -/

/-- What a step of one transaction leaves to the rows that the others have locked. -/
structure Spares (db after : Database F) (id : ℕ) : Prop where
  transactions : ∀ other, other ≠ id → after.transactions other = db.transactions other
  locks : ∀ other, other ≠ id → ∀ eventId, db.rowLocks eventId = some other →
    after.rowLocks eventId = some other
  rows : ∀ other, other ≠ id → ∀ eventId, db.rowLocks eventId = some other →
    ∀ row ∈ db.outbox, row.id = eventId → row.publishedAt = none → row ∈ after.outbox

variable {db after : Database F} {id : ℕ} {t : Transaction F}

theorem Spares.refl (db : Database F) (id : ℕ) : Spares db db id where
  transactions _ _ := rfl
  locks _ _ _ held := held
  rows _ _ _ _ _ stored _ _ := stored

theorem Spares.goOn (spares : Spares db after id) (next : Statement F) :
    Spares db (after.goOn id t next) id where
  transactions other differs := (if_neg differs).trans (spares.transactions other differs)
  locks := spares.locks
  rows := spares.rows

theorem Spares.finish (spares : Spares db after id) (outcome : StoreOutcome F) :
    Spares db (after.finish id t outcome) id where
  transactions other differs := (if_neg differs).trans (spares.transactions other differs)
  locks other differs eventId held := by
    have still := spares.locks other differs eventId held
    show (if after.rowLocks eventId = some id then none else after.rowLocks eventId) = some other
    rw [still, if_neg fun same => differs (Option.some.inj same)]
  rows := spares.rows

theorem Database.RowsHeld.of_spares (held : db.RowsHeld) (spares : Spares db after id)
    (own : ∀ t, after.transactions id = some t → t.next = .commitRow →
      ∃ eventId, t.request.updates = some eventId ∧ after.rowLocks eventId = some id ∧
        ∃ row ∈ after.outbox, row.id = eventId ∧ row.publishedAt = none) :
    after.RowsHeld := by
  intro other t found here
  by_cases same : other = id
  · subst same
    exact own t found here
  · rw [spares.transactions other same] at found
    obtain ⟨eventId, asked, locked, row, stored, named, unpublished⟩ := held other t found here
    exact ⟨eventId, asked, spares.locks other same eventId locked, row,
      spares.rows other same eventId locked row stored named unpublished, named, unpublished⟩

/-- A transaction that has ended holds nothing. -/
theorem Database.RowsHeld.finish (held : db.RowsHeld) (spares : Spares db after id)
    (outcome : StoreOutcome F) : (after.finish id t outcome).RowsHeld := by
  refine held.of_spares (spares.finish outcome) fun own found => ?_
  have gone : (after.finish id t outcome).transactions id = none := if_pos rfl
  rw [gone] at found
  cases found

theorem Database.RowsHeld.goOn (held : db.RowsHeld) (spares : Spares db after id)
    {next : Statement F} (plain : next ≠ .commitRow) : (after.goOn id t next).RowsHeld := by
  refine held.of_spares (spares.goOn next) fun own found here => ?_
  have now : (after.goOn id t next).transactions id = some { t with next } := if_pos rfl
  rw [now] at found
  obtain rfl := Option.some.inj found
  exact absurd here plain

theorem updateOutboxRow_other {request : StoreRequest F} {eventId : Text} {row : OutboxRow}
    (asked : request.updates = some eventId) (differs : row.id ≠ eventId) :
    Database.updateOutboxRow request row = row := by
  unfold Database.updateOutboxRow
  split
  · rfl
  · cases request with
    | commit => cases asked
    | appendAudit => cases asked
    | markOutboxPublished target publishedAt =>
        obtain rfl := Option.some.inj asked
        exact if_neg differs
    | recordOutboxFailure target error =>
        obtain rfl := Option.some.inj asked
        exact if_neg differs

/-- **The statements of an update** keep the locked rows. -/
theorem Database.RowsHeld.update {eventId : Text} (held : db.RowsHeld)
    (found : db.transactions id = some t) (asked : t.request.updates = some eventId)
    (move : UpdateMove db id t eventId after) : after.RowsHeld := by
  cases move with
  | wait => exact held
  | refuse error => exact held.finish (.refl db id) _
  | notFound => exact held.finish (.refl db id) _
  | lockRow row stored same unpublished free =>
      have spares : Spares db
          { db.goOn id t .commitRow with
            rowLocks := fun other => if other = eventId then some id else db.rowLocks other }
          id := by
        constructor
        case transactions => exact fun other differs => if_neg differs
        case rows => exact fun _ _ _ _ row stored _ _ => stored
        case locks =>
          intro other differs target locked
          show (if target = eventId then some id else db.rowLocks target) = some other
          rw [if_neg]
          · exact locked
          · rintro rfl
            refine free ⟨by simp [locked], ?_⟩
            rw [locked]
            exact fun same => differs (Option.some.inj same)
      refine held.of_spares spares fun own here _ => ?_
      have now : own = { t with next := .commitRow } :=
        (Option.some.inj ((if_pos rfl).symm.trans here)).symm
      refine ⟨eventId, by rw [now]; exact asked, if_pos rfl, row, stored, same, unpublished⟩
  | update here =>
      obtain ⟨target, same, locked, -⟩ := held id t found here
      obtain rfl : eventId = target := Option.some.inj (asked.symm.trans same)
      have spares : Spares db
          { db with outbox := db.outbox.map (Database.updateOutboxRow t.request) } id := by
        refine ⟨fun _ _ => rfl, fun _ _ _ still => still, ?_⟩
        intro other differs event still row stored named unpublished
        -- The row of the update is locked by this transaction.
        have apart : row.id ≠ eventId := by
          rintro rfl
          rw [← named, locked] at still
          exact differs (Option.some.inj still).symm
        exact List.mem_map.mpr ⟨row, stored, updateOutboxRow_other asked apart⟩
      exact held.finish spares _

section Runs

variable [PyFloat F] {hash : List ℕ → Text}

/-- The statements of a commit and of an audit record lock no rows. -/
theorem Database.RowsHeld.move (held : db.RowsHeld) (writes : t.request.auditEvent ≠ none)
    (move : Move hash db id t after) : after.RowsHeld := by
  have spares := Spares.refl db id
  cases move with
  | wait => exact held
  | refuse error => exact held.finish spares _
  | notFound => exact held.finish spares _
  | chooseState next request asked chosen =>
      refine held.goOn spares ?_
      rcases chosen with rfl | ⟨rfl, -⟩
      · exact fun same => nomatch same
      · exact fun same => nomatch same
  | checked => exact held.goOn spares fun same => nomatch same
  | lockState => exact held.goOn ⟨spares.1, spares.2, spares.3⟩ fun same => nomatch same
  | lockHead => exact held.goOn ⟨spares.1, spares.2, spares.3⟩ fun same => nomatch same
  | buildAudit => exact held.goOn spares fun same => nomatch same
  | moveHead head row entry next here unmoved behind =>
      refine held.goOn spares ?_
      rcases behind with ⟨request, -, rfl⟩ | ⟨audit, revision, -, rfl⟩
      · exact fun same => nomatch same
      · exact fun same => nomatch same
  | buildOutbox => exact held.goOn spares fun same => nomatch same
  | record row entry outbox outcome here ends =>
      have kept : Spares db (db.apply t row entry outbox) id :=
        ⟨spares.1, spares.2, fun _ _ _ _ _ stored _ _ => List.mem_append_left _ stored⟩
      exact held.finish kept _
  | lockRow eventId asked => exact absurd asked writes
  | update asked => exact absurd asked writes

/-- What a transaction does next, by what it was asked. -/
theorem advance_cases (eventId : EventId) (sound : t.Sound hash db id)
    (found : db.transactions id = some t) :
    (t.request.auditEvent ≠ none ∧ Move hash db id t (db.advance id hash eventId)) ∨
      ∃ target, t.request.updates = some target ∧
        UpdateMove db id t target (db.advance id hash eventId) := by
  have moves : Move hash db id t (db.advance id hash eventId) := move_advance sound found
  cases asked : t.request with
  | commit request => exact Or.inl ⟨fun none => (Option.some_ne_none _ none).elim, moves⟩
  | appendAudit audit revision =>
      exact Or.inl ⟨fun none => (Option.some_ne_none _ none).elim, moves⟩
  | markOutboxPublished target publishedAt =>
      refine Or.inr ⟨target, rfl, ?_⟩
      unfold Database.advance
      rw [found]
      simp only [asked]
      exact updateMove_advanceUpdate db id t target
  | recordOutboxFailure target error =>
      refine Or.inr ⟨target, rfl, ?_⟩
      unfold Database.advance
      rw [found]
      simp only [asked]
      exact updateMove_advanceUpdate db id t target

theorem Database.RowsHeld.step (held : db.RowsHeld) (sound : db.Sound hash)
    (action : StoreAction F) : (db.step hash action).RowsHeld := by
  cases action with
  | start id request now =>
      have opens : ∀ own : Transaction F, (db.goOn id own (first request)).RowsHeld := by
        intro own
        refine held.goOn (Spares.refl db id) ?_
        cases request with
        | _ => exact fun same => nomatch same
      show (db.start id hash request now).RowsHeld
      unfold Database.start
      simp only
      split
      · exact held
      · split
        · split
          · exact held
          · exact opens _
        · exact opens _
  | advance id eventId =>
      cases found : db.transactions id with
      | none =>
          show (db.advance id hash eventId).RowsHeld
          unfold Database.advance
          rw [found]
          exact held
      | some t =>
          rcases advance_cases eventId (sound id t found) found with
            ⟨writes, move⟩ | ⟨target, asked, move⟩
          · exact held.move writes move
          · exact held.update found asked move
  | abort id =>
      show (db.abort id).RowsHeld
      unfold Database.abort
      split
      · exact held
      · exact held.finish (Spares.refl db id) _

theorem Database.Distinct.effect (distinct : db.Distinct) (effect : Effect hash db after) :
    after.Distinct := by
  unfold Database.Distinct at distinct ⊢
  cases effect with
  | quiet _ _ _ _ outbox _ _ =>
      rcases outbox with same | ⟨request, mapped⟩
      · rw [same]
        exact distinct
      · rw [mapped, List.map_map]
        have ids : OutboxRow.id ∘ Database.updateOutboxRow request = OutboxRow.id :=
          funext fun row => (updateOutboxRow_same request row).1
        rw [ids]
        exact distinct
  | appended audit revision now row entry records _ outbox _ =>
      rw [outbox]
      exact distinct
  | committed request prepared now stateRow row entry outbox eventId _ _ _ records _ fresh _
      outboxes _ =>
      rw [outboxes, List.map_append, List.map_singleton]
      refine List.nodup_append.mpr ⟨distinct, List.nodup_singleton _, ?_⟩
      rintro own listed other single rfl
      obtain ⟨stored, member, rfl⟩ := List.mem_map.mp listed
      exact (fresh stored member).1 (List.mem_singleton.mp single)

end Runs

end ImposbroSearch.ControlPlane.AuditStore
