import ImposbroSearch.ControlPlane.StoreTransactions

/-!
# What a statement of the control-plane store does

Each statement makes one of a few moves. What a transaction has read and built stays true
until its end, because it holds the locks of what it has read; and the tables change at the
end of a transaction only, all of them at once.
-/

namespace ImposbroSearch.ControlPlane.AuditStore

open ImposbroSearch.Foundation

variable {F : Type} [PyFloat F] (hash : List ℕ → Text)

/-- The moves of a transaction. -/
inductive Move (db : Database F) (id : ℕ) (t : Transaction F) : Database F → Prop
  | wait : Move db id t db
  | refuse (error : StoreError) : Move db id t (db.refuse id t error)
  | notFound : Move db id t (db.finish id t (.updated false))
  | chooseState (next : Statement F) (request : CommitRequest F)
      (asked : t.request = .commit request)
      (chosen : next = .updateState ∨ next = .insertState ∧ request.expectedRevision = 0) :
      Move db id t (db.goOn id t next)
  | checked (audit : AuditEvent F) (revision : Option ℤ)
      (asked : t.request = .appendAudit audit revision) : Move db id t (db.goOn id t .selectHead)
  | lockState (request : CommitRequest F) (prepared : PreparedCommit F) (row : StateRow)
      (asked : t.request = .commit request) (ready : t.prepared = some prepared)
      (built : nextStateRow request prepared t.startedAt = some row)
      (free : ¬LockedByOther db.stateLock id)
      (current : db.latestRevision.getD 0 = request.expectedRevision) :
      Move db id t ({ db with stateLock := some id }.goOn id { t with pendingState := some row }
        .selectHead)
  | lockHead (here : t.next = .selectHead) (free : ¬LockedByOther db.headLock id) :
      Move db id t ({ db with headLock := some id }.goOn id t (.insertAudit db.head))
  | buildAudit (head : ChainPoint Text) (row : AuditRow) (entry : AuditEntry F)
      (audit : AuditEvent F) (revision : Option ℤ) (eventId : EventId)
      (here : t.next = .insertAudit head) (asked : t.request.auditEvent = some (audit, revision))
      (built : nextAuditRow hash head audit revision t.startedAt eventId = .ok (row, entry))
      (fresh : ∀ other ∈ db.audit, other.id ≠ row.id) :
      Move db id t (db.goOn id t (.updateHead head row entry))
  | moveHead (head : ChainPoint Text) (row : AuditRow) (entry : AuditEntry F) (next : Statement F)
      (here : t.next = .updateHead head row entry) (unmoved : db.head = head)
      (behind : (∃ request, t.request = .commit request ∧ next = .insertOutbox row entry) ∨
        ∃ audit revision, t.request = .appendAudit audit revision ∧
          next = .commit row entry none) :
      Move db id t (db.goOn id t next)
  | buildOutbox (row : AuditRow) (entry : AuditEntry F) (outbox : OutboxRow)
      (request : CommitRequest F) (prepared : PreparedCommit F) (eventId : EventId)
      (here : t.next = .insertOutbox row entry) (asked : t.request = .commit request)
      (ready : t.prepared = some prepared)
      (built : nextOutboxRow request prepared t.startedAt eventId = some outbox)
      (fresh : ∀ other ∈ db.outbox, other.id ≠ outbox.id ∧ other.revision ≠ outbox.revision) :
      Move db id t (db.goOn id t (.commit row entry (some outbox)))
  | record (row : AuditRow) (entry : AuditEntry F) (outbox : Option OutboxRow)
      (outcome : StoreOutcome F) (here : t.next = .commit row entry outbox)
      (ends : (∃ request prepared, t.request = .commit request ∧ t.prepared = some prepared ∧
          outcome = .committed
            { revision := request.expectedRevision + 1
              schemaVersion := request.schemaVersion
              state := prepared.state
              stateDigest := prepared.stateDigest
              updatedAt := t.startedAt }) ∨
        ∃ audit revision, t.request = .appendAudit audit revision ∧ outcome = .appended) :
      Move db id t ((db.apply t row entry outbox).finish id t outcome)
  | lockRow (eventId : Text) (asked : t.request.auditEvent = none) :
      Move db id t
        { db.goOn id t .commitRow with
          rowLocks := fun other => if other = eventId then some id else db.rowLocks other }
  | update (asked : t.request.auditEvent = none) :
      Move db id t ({ db with outbox := db.outbox.map (Database.updateOutboxRow t.request) }.finish
        id t (.updated true))

/-! ## What a transaction knows -/

/-- The head that a statement has read. -/
def Statement.head? : Statement F → Option (ChainPoint Text)
  | .insertAudit head => some head
  | .updateHead head _ _ => some head
  | _ => none

/-- The audit row that is built. -/
def Statement.audit? : Statement F → Option (AuditRow × AuditEntry F)
  | .updateHead _ row entry => some (row, entry)
  | .insertOutbox row entry => some (row, entry)
  | .commit row entry _ => some (row, entry)
  | _ => none

/-- The state row is written, if there is one to write. -/
def Statement.pastState : Statement F → Bool
  | .selectHead => true
  | .insertAudit _ => true
  | .updateHead _ _ _ => true
  | .insertOutbox _ _ => true
  | .commit _ _ _ => true
  | _ => false

/-- The state row that a commit has written and locked. -/
structure HoldsState (db : Database F) (id : ℕ) (t : Transaction F) (request : CommitRequest F) :
    Prop where
  locked : db.stateLock = some id
  current : db.latestRevision.getD 0 = request.expectedRevision
  pending : ∃ prepared row, t.prepared = some prepared ∧ t.pendingState = some row ∧
    nextStateRow request prepared t.startedAt = some row

/-- The audit row that a transaction has built behind the head it has locked. -/
structure HoldsAudit (db : Database F) (id : ℕ) (t : Transaction F) (row : AuditRow)
    (entry : AuditEntry F) : Prop where
  locked : db.headLock = some id
  built : ∃ audit revision eventId, t.request.auditEvent = some (audit, revision) ∧
    nextAuditRow hash db.head audit revision t.startedAt eventId = .ok (row, entry)

/-- The outbox row that a transaction has built. -/
def HoldsOutbox (db : Database F) (t : Transaction F) (outbox : Option OutboxRow) : Prop :=
  match t.request with
  | .commit request => ∃ prepared row eventId, t.prepared = some prepared ∧ outbox = some row ∧
      nextOutboxRow request prepared t.startedAt eventId = some row ∧
      ∀ other ∈ db.outbox, other.id ≠ row.id ∧ other.revision ≠ row.revision
  | _ => outbox = none

/-- Everything that a transaction has read and built is true of the tables. -/
structure Transaction.Sound (db : Database F) (id : ℕ) (t : Transaction F) : Prop where
  prepared : ∀ request, t.request = .commit request →
    ∃ ready, t.prepared = some ready ∧ prepareCommit hash request = .ok ready
  inserts : ∀ request, t.request = .commit request → t.next = .insertState →
    request.expectedRevision = 0
  state : t.next.pastState → ∀ request, t.request = .commit request → HoldsState db id t request
  unchanged : ∀ audit revision, t.request = .appendAudit audit revision → t.pendingState = none
  head : ∀ head ∈ t.next.head?, db.headLock = some id ∧ db.head = head
  audit : ∀ pair ∈ t.next.audit?, HoldsAudit hash db id t pair.1 pair.2
  outbox : ∀ row entry outbox, t.next = .commit row entry outbox → HoldsOutbox db t outbox

def Database.Sound (db : Database F) : Prop :=
  ∀ id t, db.transactions id = some t → t.Sound hash db id

variable {hash} {db : Database F} {id : ℕ} {t : Transaction F} {eventId : EventId}

/-! ## The moves of the source -/

theorem move_advanceState {request : CommitRequest F} {prepared : PreparedCommit F}
    (sound : t.Sound hash db id) (asked : t.request = .commit request)
    (ready : t.prepared = some prepared) :
    Move hash db id t (db.advanceState id t request prepared) := by
  unfold Database.advanceState
  split
  · exact .refuse _
  next row built =>
    simp only
    split
    next inserts =>
      split_ifs with locked
      · exact .wait
      · split
        · exact .refuse _
        next none =>
          refine .lockState request prepared row asked ready built locked ?_
          rw [none, sound.inserts request asked inserts]
          rfl
    · split_ifs with locked current
      · exact .wait
      · exact .lockState request prepared row asked ready built locked (by rw [current]; rfl)
      · exact .refuse _
    · exact .wait

theorem move_advanceAudit {audit : AuditEvent F} {revision : Option ℤ}
    {behind : AuditRow → AuditEntry F → Statement F}
    (asked : t.request.auditEvent = some (audit, revision))
    (next : (∃ request, t.request = .commit request ∧ behind = .insertOutbox) ∨
      ∃ audit revision, t.request = .appendAudit audit revision ∧
        behind = fun row entry => .commit row entry none) :
    Move hash db id t (db.advanceAudit id t hash audit revision eventId behind) := by
  unfold Database.advanceAudit
  split
  next here =>
    split_ifs with locked
    · exact .wait
    · exact .lockHead here locked
  next head here =>
    split
    · exact .refuse _
    next row entry built =>
      split_ifs with taken
      · exact .refuse _
      · refine .buildAudit head row entry audit revision eventId here asked built ?_
        intro other stored same
        exact List.any_eq_false.mp (Bool.eq_false_iff.mpr taken) other stored
          (decide_eq_true (Or.inl same))
  next head row entry here =>
    split_ifs with unmoved
    · refine .moveHead head row entry _ here unmoved ?_
      rcases next with ⟨request, commits, rfl⟩ | ⟨event, about, appends, rfl⟩
      · exact Or.inl ⟨request, commits, rfl⟩
      · exact Or.inr ⟨event, about, appends, rfl⟩
    · exact .refuse _
  · exact .wait

theorem move_advanceCommit {request : CommitRequest F} {prepared : PreparedCommit F}
    (sound : t.Sound hash db id) (asked : t.request = .commit request)
    (ready : t.prepared = some prepared) :
    Move hash db id t (db.advanceCommit id t hash request prepared eventId) := by
  unfold Database.advanceCommit
  split
  · split
    · exact .chooseState _ request asked (Or.inl rfl)
    · split_ifs with first
      · exact .refuse _
      · exact .chooseState _ request asked (Or.inr ⟨rfl, not_not.mp first⟩)
  · exact move_advanceState sound asked ready
  · exact move_advanceState sound asked ready
  next row entry here =>
    split
    · exact .refuse _
    next outbox built =>
      split_ifs with taken
      · exact .refuse _
      · refine .buildOutbox row entry outbox request prepared eventId here asked ready built ?_
        intro other stored
        have free := List.any_eq_false.mp (Bool.eq_false_iff.mpr taken) other stored
        exact ⟨fun same => free (decide_eq_true (Or.inl same)),
          fun same => free (decide_eq_true (Or.inr same))⟩
  next row entry outbox here =>
    exact .record row entry outbox _ here (Or.inl ⟨request, prepared, asked, ready, rfl⟩)
  · refine move_advanceAudit ?_ (Or.inl ⟨request, asked, rfl⟩)
    rw [asked]
    rfl

theorem move_advanceAppend {audit : AuditEvent F} {revision : Option ℤ}
    (asked : t.request = .appendAudit audit revision) :
    Move hash db id t (db.advanceAppend id t hash audit revision eventId) := by
  unfold Database.advanceAppend
  split
  · split_ifs with committed
    · exact .checked audit revision asked
    · exact .refuse _
  next row entry outbox here =>
    exact .record row entry outbox _ here (Or.inr ⟨audit, revision, asked, rfl⟩)
  · refine move_advanceAudit ?_ (Or.inr ⟨audit, revision, asked, rfl⟩)
    rw [asked]
    rfl

theorem move_advanceUpdate {target : Text} (asked : t.request.auditEvent = none) :
    Move hash db id t (db.advanceUpdate id t target) := by
  unfold Database.advanceUpdate
  split
  · split
    · exact .refuse _
    · split
      · split
        · exact .wait
        · exact .lockRow target asked
      · exact .notFound
  · exact .update asked
  · exact .wait

/-- **Every statement** makes a move. -/
theorem move_advance (sound : t.Sound hash db id) (found : db.transactions id = some t) :
    Move hash db id t (db.advance id hash eventId) := by
  unfold Database.advance
  rw [found]
  simp only
  split
  next request prepared asked ready => exact move_advanceCommit sound asked ready
  next audit revision _ asked => exact move_advanceAppend asked
  next target at_ _ asked => exact move_advanceUpdate (by rw [asked]; rfl)
  next target error _ asked => exact move_advanceUpdate (by rw [asked]; rfl)
  · exact .wait

/-! ## What the others keep -/

/-- What a move leaves to another transaction. -/
structure Leaves (db after : Database F) (other : ℕ) : Prop where
  state : db.stateLock = some other → after.stateLock = some other ∧
    after.latestRevision = db.latestRevision ∧ ∀ row ∈ after.outbox, ∃ before ∈ db.outbox,
      row.id = before.id ∧ row.revision = before.revision
  head : db.headLock = some other → after.headLock = some other ∧ after.head = db.head

theorem Transaction.Sound.leaves {after : Database F} (sound : t.Sound hash db id)
    (leaves : Leaves db after id) : t.Sound hash after id where
  prepared := sound.prepared
  inserts := sound.inserts
  unchanged := sound.unchanged
  state past request asked := by
    have holds := sound.state past request asked
    obtain ⟨locked, same, -⟩ := leaves.state holds.locked
    exact ⟨locked, by rw [same]; exact holds.current, holds.pending⟩
  head head read := by
    obtain ⟨locked, same⟩ := sound.head head read
    exact ⟨(leaves.head locked).1, (leaves.head locked).2.trans same⟩
  audit pair built := by
    have holds := sound.audit pair built
    obtain ⟨locked, same⟩ := leaves.head holds.locked
    exact ⟨locked, by rw [same]; exact holds.built⟩
  outbox row entry outbox here := by
    have holds := sound.outbox row entry outbox here
    unfold HoldsOutbox at holds ⊢
    split
    next request asked =>
      rw [asked] at holds
      obtain ⟨prepared, new, eventId, ready, made, built, fresh⟩ := holds
      have locked := (sound.state (by rw [here]; rfl) request asked).locked
      refine ⟨prepared, new, eventId, ready, made, built, fun other stored => ?_⟩
      obtain ⟨before, there, sameId, sameRevision⟩ := (leaves.state locked).2.2 other stored
      rw [sameId, sameRevision]
      exact fresh before there
    next another =>
      split at holds
      next request asked => exact absurd asked (another request)
      · exact holds

omit [PyFloat F] in
theorem Leaves.refl (other : ℕ) : Leaves db db other where
  state locked := ⟨locked, rfl, fun row stored => ⟨row, stored, rfl, rfl⟩⟩
  head locked := ⟨locked, rfl⟩

omit [PyFloat F] in
/-- A move that changes neither the state nor the head. -/
theorem leaves_of_eq {after : Database F} {other : ℕ} (stateLock : after.stateLock = db.stateLock)
    (state : after.state = db.state) (outbox : after.outbox = db.outbox)
    (headLock : after.headLock = db.headLock) (head : after.head = db.head) :
    Leaves db after other where
  state locked := by
    refine ⟨stateLock.trans locked, by unfold Database.latestRevision; rw [state], ?_⟩
    rw [outbox]
    exact fun row stored => ⟨row, stored, rfl, rfl⟩
  head locked := ⟨headLock.trans locked, head⟩

omit [PyFloat F] in
theorem leaves_finish {after : Database F} {other : ℕ} {outcome : StoreOutcome F}
    (leaves : Leaves db after other) (differs : other ≠ id) :
    Leaves db (after.finish id t outcome) other where
  state locked := by
    obtain ⟨still, same, rows⟩ := leaves.state locked
    refine ⟨?_, same, rows⟩
    show (if after.stateLock = some id then none else after.stateLock) = some other
    rw [still, if_neg fun same => differs (Option.some.inj same)]
  head locked := by
    obtain ⟨still, same⟩ := leaves.head locked
    refine ⟨?_, same⟩
    show (if after.headLock = some id then none else after.headLock) = some other
    rw [still, if_neg fun same => differs (Option.some.inj same)]

omit [PyFloat F] in
theorem updateOutboxRow_same (request : StoreRequest F) (row : OutboxRow) :
    (Database.updateOutboxRow request row).id = row.id ∧
      (Database.updateOutboxRow request row).revision = row.revision := by
  unfold Database.updateOutboxRow
  split
  · exact ⟨rfl, rfl⟩
  · split
    · split
      · exact ⟨rfl, rfl⟩
      · exact ⟨rfl, rfl⟩
    · split
      · exact ⟨rfl, rfl⟩
      · exact ⟨rfl, rfl⟩
    · exact ⟨rfl, rfl⟩

/-- **A move leaves the others alone**: nobody changes what another transaction has locked. -/
theorem Move.leaves {after : Database F} (move : Move hash db id t after)
    (sound : t.Sound hash db id) {other : ℕ} (differs : other ≠ id) : Leaves db after other := by
  have apart : some id ≠ some other := fun same => differs (Option.some.inj same).symm
  cases move with
  | wait => exact .refl other
  | refuse error => exact leaves_finish (.refl other) differs
  | notFound => exact leaves_finish (.refl other) differs
  | chooseState => exact leaves_of_eq rfl rfl rfl rfl rfl
  | checked => exact leaves_of_eq rfl rfl rfl rfl rfl
  | lockState request prepared row asked ready built free =>
      refine ⟨fun locked => absurd ⟨by simp [locked], ?_⟩ free, fun locked => ⟨locked, rfl⟩⟩
      rw [locked]
      exact apart.symm
  | lockHead here free =>
      refine ⟨fun locked => ⟨locked, rfl, fun row stored => ⟨row, stored, rfl, rfl⟩⟩,
        fun locked => absurd ⟨by simp [locked], ?_⟩ free⟩
      rw [locked]
      exact apart.symm
  | buildAudit => exact leaves_of_eq rfl rfl rfl rfl rfl
  | moveHead => exact leaves_of_eq rfl rfl rfl rfl rfl
  | buildOutbox => exact leaves_of_eq rfl rfl rfl rfl rfl
  | record row entry outbox outcome here ends =>
      have headLock := (sound.audit (row, entry) (by rw [here]; rfl)).locked
      refine leaves_finish ⟨fun locked => ?_, fun locked => ?_⟩ differs
      · rcases ends with ⟨request, prepared, asked, -, -⟩ | ⟨audit, revision, asked, -⟩
        · have holds := sound.state (by rw [here]; rfl) request asked
          rw [holds.locked] at locked
          exact absurd locked apart
        · -- an audit record of its own writes neither the state nor the outbox
          have none := sound.outbox row entry outbox here
          unfold HoldsOutbox at none
          rw [asked] at none
          obtain rfl : outbox = Option.none := none
          have unchanged : (db.apply t row entry Option.none).state = db.state := by
            show t.pendingState.or db.state = db.state
            rw [sound.unchanged audit revision asked]
            rfl
          refine ⟨locked, by unfold Database.latestRevision; rw [unchanged], ?_⟩
          intro stored member
          exact ⟨stored, by simpa [Database.apply] using member, rfl, rfl⟩
      · rw [headLock] at locked
        exact absurd locked apart
  | lockRow => exact leaves_of_eq rfl rfl rfl rfl rfl
  | update asked =>
      refine leaves_finish ⟨fun locked => ⟨locked, rfl, ?_⟩, fun locked => ⟨locked, rfl⟩⟩ differs
      intro row member
      obtain ⟨before, stored, rfl⟩ := List.mem_map.mp member
      exact ⟨before, stored, updateOutboxRow_same t.request before⟩

/-! ## The transaction itself -/

/-- A transaction that has not read the head. -/
theorem Transaction.Sound.unread
    (prepared : ∀ request, t.request = .commit request →
      ∃ ready, t.prepared = some ready ∧ prepareCommit hash request = .ok ready)
    (unchanged : ∀ audit revision, t.request = .appendAudit audit revision → t.pendingState = none)
    (inserts : ∀ request, t.request = .commit request → t.next = .insertState →
      request.expectedRevision = 0)
    (state : t.next.pastState → ∀ request, t.request = .commit request → HoldsState db id t request)
    (head : t.next.head? = none) (audit : t.next.audit? = none) : t.Sound hash db id where
  prepared := prepared
  inserts := inserts
  state := state
  unchanged := unchanged
  head read found := by rw [head] at found; cases found
  audit pair found := by rw [audit] at found; cases found
  outbox row entry built here := by
    rw [here] at audit
    cases audit

/-- A transaction that has locked the head. -/
theorem Transaction.Sound.behind {next : Statement F} (sound : t.Sound hash db id)
    (past : t.next.pastState) (inserts : next.pastState)
    (head : ∀ head ∈ next.head?, db.headLock = some id ∧ db.head = head)
    (audit : ∀ pair ∈ next.audit?, HoldsAudit hash db id t pair.1 pair.2)
    (outbox : ∀ row entry outbox, next = .commit row entry outbox → HoldsOutbox db t outbox) :
    Transaction.Sound hash (db.goOn id t next) id { t with next } where
  prepared := sound.prepared
  inserts _ _ here := by
    rw [show next = .insertState from here] at inserts
    cases inserts
  state _ request asked :=
    have holds := sound.state past request asked
    ⟨holds.locked, holds.current, holds.pending⟩
  unchanged := sound.unchanged
  head := head
  audit pair found :=
    have holds := audit pair found
    ⟨holds.locked, holds.built⟩
  outbox row entry built here := outbox row entry built here

theorem Move.own {after : Database F} (move : Move hash db id t after)
    (found : db.transactions id = some t) (sound : t.Sound hash db id) :
    ∀ own, after.transactions id = some own → own.Sound hash after id := by
  have gone : ∀ (base : Database F) (outcome : StoreOutcome F) own,
      (base.finish id t outcome).transactions id = some own →
        own.Sound hash (base.finish id t outcome) id := by
    intro base outcome own here
    have none : (base.finish id t outcome).transactions id = none := if_pos rfl
    rw [none] at here
    cases here
  have goes : ∀ (base : Database F) (next : Statement F),
      Transaction.Sound hash (base.goOn id t next) id { t with next } →
      ∀ own, (base.goOn id t next).transactions id = some own →
        own.Sound hash (base.goOn id t next) id := by
    intro base next holds own here
    have some_ : (base.goOn id t next).transactions id = some { t with next } := if_pos rfl
    rw [some_] at here
    exact Option.some.inj here ▸ holds
  cases move with
  | wait =>
      intro own here
      rw [found] at here
      exact Option.some.inj here ▸ sound
  | refuse error => exact gone db _
  | notFound => exact gone db _
  | chooseState next request asked chosen =>
      refine goes db next (.unread sound.prepared sound.unchanged ?_ ?_ ?_ ?_)
      · rintro other other_ inserts
        rcases chosen with rfl | ⟨rfl, zero⟩
        · cases inserts
        · obtain rfl : request = other := StoreRequest.commit.inj (asked.symm.trans other_)
          exact zero
      all_goals rcases chosen with rfl | ⟨rfl, -⟩
      · exact Bool.noConfusion
      · exact Bool.noConfusion
      all_goals rfl
  | checked audit revision asked =>
      refine goes db _ (.unread sound.prepared sound.unchanged ?_ ?_ rfl rfl)
      · exact fun _ _ here => nomatch here
      · intro _ request other
        rw [show t.request = .commit request from other] at asked
        cases asked
  | lockState request prepared row asked ready built free current =>
      intro own here
      have some_ : own = { t with pendingState := some row, next := .selectHead } :=
        (Option.some.inj ((if_pos rfl).symm.trans here)).symm
      rw [some_]
      refine .unread sound.prepared ?_ (fun _ _ here => nomatch here) ?_ rfl rfl
      · intro audit revision appends
        rw [show t.request = .appendAudit audit revision from appends] at asked
        cases asked
      · intro _ other other_
        obtain rfl : request = other := StoreRequest.commit.inj (asked.symm.trans other_)
        exact ⟨rfl, current, prepared, row, ready, rfl, built⟩
  | lockHead here free =>
      have base : t.Sound hash { db with headLock := some id } id := by
        refine .unread sound.prepared sound.unchanged sound.inserts ?_ (by rw [here]; rfl)
          (by rw [here]; rfl)
        intro past request asked
        have holds := sound.state past request asked
        exact ⟨holds.locked, holds.current, holds.pending⟩
      refine goes _ _ (base.behind (by rw [here]; rfl) rfl ?_ ?_ ?_)
      · intro head read
        exact ⟨rfl, Option.some.inj read⟩
      · exact fun pair found => nomatch found
      · exact fun _ _ _ wrong => nomatch wrong
  | buildAudit head row entry audit revision eventId here asked built fresh =>
      obtain ⟨locked, unmoved⟩ := sound.head head (by rw [here]; rfl)
      refine goes db _ (sound.behind (by rw [here]; rfl) rfl ?_ ?_ ?_)
      · intro read found
        obtain rfl : head = read := Option.some.inj found
        exact ⟨locked, unmoved⟩
      · intro pair found
        obtain rfl : (row, entry) = pair := Option.some.inj found
        exact ⟨locked, audit, revision, eventId, asked, by rw [unmoved]; exact built⟩
      · exact fun _ _ _ wrong => nomatch wrong
  | moveHead head row entry next here unmoved behind =>
      have holds := sound.audit (row, entry) (by rw [here]; rfl)
      rcases behind with ⟨request, asked, rfl⟩ | ⟨audit, revision, asked, rfl⟩
      · refine goes db _ (sound.behind (by rw [here]; rfl) rfl (fun _ found => nomatch found) ?_ ?_)
        · exact fun pair found => Option.some.inj found ▸ holds
        · exact fun _ _ _ wrong => nomatch wrong
      · refine goes db _ (sound.behind (by rw [here]; rfl) rfl (fun _ found => nomatch found) ?_ ?_)
        · exact fun pair found => Option.some.inj found ▸ holds
        · rintro _ _ _ ⟨⟩
          unfold HoldsOutbox
          rw [asked]
  | buildOutbox row entry outbox request prepared eventId here asked ready built fresh =>
      have holds := sound.audit (row, entry) (by rw [here]; rfl)
      refine goes db _ (sound.behind (by rw [here]; rfl) rfl (fun _ found => nomatch found) ?_ ?_)
      · exact fun pair found => Option.some.inj found ▸ holds
      · rintro _ _ _ ⟨⟩
        unfold HoldsOutbox
        rw [asked]
        exact ⟨prepared, outbox, eventId, ready, rfl, built, fresh⟩
  | record row entry outbox outcome here ends => exact gone _ _
  | lockRow eventId asked =>
      intro own here
      have some_ : own = { t with next := .commitRow } :=
        (Option.some.inj ((if_pos rfl).symm.trans here)).symm
      rw [some_]
      refine .unread sound.prepared sound.unchanged (fun _ _ here => nomatch here)
        (fun past => nomatch past) rfl rfl
  | update asked => exact gone _ _

omit [PyFloat F] in
theorem transactions_finish {base : Database F} {outcome : StoreOutcome F} {other : ℕ}
    (differs : other ≠ id) :
    (base.finish id t outcome).transactions other = base.transactions other :=
  if_neg differs

omit [PyFloat F] in
theorem transactions_goOn {base : Database F} {next : Statement F} {other : ℕ}
    (differs : other ≠ id) : (base.goOn id t next).transactions other = base.transactions other :=
  if_neg differs

theorem Move.others {after : Database F} (move : Move hash db id t after) {other : ℕ}
    (differs : other ≠ id) : after.transactions other = db.transactions other := by
  cases move with
  | wait => rfl
  | refuse error => exact transactions_finish differs
  | notFound => exact transactions_finish differs
  | chooseState => exact transactions_goOn differs
  | checked => exact transactions_goOn differs
  | lockState => exact transactions_goOn differs
  | lockHead => exact transactions_goOn differs
  | buildAudit => exact transactions_goOn differs
  | moveHead => exact transactions_goOn differs
  | buildOutbox => exact transactions_goOn differs
  | record => exact transactions_finish differs
  | lockRow => exact transactions_goOn differs
  | update => exact transactions_finish differs

theorem Database.Sound.move {after : Database F} (sound : db.Sound hash)
    (found : db.transactions id = some t) (move : Move hash db id t after) : after.Sound hash := by
  intro other own here
  have holds := sound id t found
  by_cases same : other = id
  · subst same
    exact move.own found holds own here
  · rw [move.others same] at here
    exact (sound other own here).leaves (move.leaves holds same)

theorem Database.Sound.start (sound : db.Sound hash) (request : StoreRequest F) (now : Timestamp) :
    (db.start id hash request now).Sound hash := by
  have opens : ∀ prepared : Option (PreparedCommit F),
      (∀ arguments, request = .commit arguments →
        ∃ ready, prepared = some ready ∧ prepareCommit hash arguments = .ok ready) →
      (db.goOn id ⟨request, prepared, now, first request, none⟩ (first request)).Sound hash := by
    intro prepared ready other own here
    by_cases same : other = id
    · subst same
      have own_ := Option.some.inj ((if_pos rfl).symm.trans here)
      rw [← own_]
      refine .unread ready (fun _ _ _ => rfl) ?_ ?_ ?_ ?_
      · intro arguments _ inserts
        cases request with
        | _ => cases inserts
      · intro past
        cases request with
        | _ => cases past
      all_goals cases request with
        | _ => rfl
    · rw [transactions_goOn same] at here
      exact (sound other own here).leaves (leaves_of_eq rfl rfl rfl rfl rfl)
  unfold Database.start
  simp only
  split
  · exact sound
  · split
    next arguments =>
      split
      · intro other own here
        exact (sound other own here).leaves (leaves_of_eq rfl rfl rfl rfl rfl)
      next prepared ready =>
        refine opens (some prepared) ?_
        rintro _ ⟨⟩
        exact ⟨prepared, rfl, ready⟩
    next another =>
      exact opens none fun arguments commits => absurd commits (another arguments)

/-- **What transactions know stays true** in every step. -/
theorem Database.Sound.step (sound : db.Sound hash) (action : StoreAction F) :
    (db.step hash action).Sound hash := by
  cases action with
  | start id request now => exact sound.start request now
  | advance id eventId =>
      cases found : db.transactions id with
      | none =>
          have same : db.step hash (.advance id eventId) = db := by
            show db.advance id hash eventId = db
            unfold Database.advance
            rw [found]
          rw [same]
          exact sound
      | some t => exact sound.move found (move_advance (sound id t found) found)
  | abort id =>
      show (db.abort id).Sound hash
      unfold Database.abort
      split
      · exact sound
      next t found => exact sound.move found (.refuse _)

/-! ## What happens to the tables -/

/-- An outcome of a transaction that recorded nothing. -/
def StoreOutcome.Records : StoreOutcome F → Prop
  | .committed _ => True
  | .appended => True
  | _ => False

variable (hash)

/-- The step of a transaction that records an audit event. -/
structure Records (db after : Database F) (audit : AuditEvent F) (revision : Option ℤ)
    (now : Timestamp) (row : AuditRow) (entry : AuditEntry F) : Prop where
  built : ∃ eventId, nextAuditRow hash db.head audit revision now eventId = .ok (row, entry)
  head : after.head = ⟨row.sequence, row.eventHash⟩
  audit : after.audit = db.audit ++ [row]
  history : after.history = db.history ++ [entry]

/-- The effect of a step on the tables: none but for updates of outbox rows, an audit
record, or a state with its audit record and its outbox row. -/
inductive Effect (db after : Database F) : Prop
  | quiet (state : after.state = db.state) (head : after.head = db.head)
      (audit : after.audit = db.audit) (history : after.history = db.history)
      (outbox : after.outbox = db.outbox ∨
        ∃ request : StoreRequest F,
          after.outbox = db.outbox.map (Database.updateOutboxRow request))
      (outcomes : ∀ result ∈ after.outcomes, result ∈ db.outcomes ∨ ¬result.2.Records)
      (kept : ∀ result ∈ db.outcomes, result ∈ after.outcomes)
  | appended (audit : AuditEvent F) (revision : Option ℤ) (now : Timestamp) (row : AuditRow)
      (entry : AuditEntry F) (records : Records hash db after audit revision now row entry)
      (state : after.state = db.state) (outbox : after.outbox = db.outbox)
      (outcomes : after.outcomes = db.outcomes ++ [(.appendAudit audit revision, .appended)])
  | committed (request : CommitRequest F) (prepared : PreparedCommit F) (now : Timestamp)
      (stateRow : StateRow) (row : AuditRow) (entry : AuditEntry F) (outbox : OutboxRow)
      (eventId : EventId) (ready : prepareCommit hash request = .ok prepared)
      (current : db.latestRevision.getD 0 = request.expectedRevision)
      (builtState : nextStateRow request prepared now = some stateRow)
      (records : Records hash db after request.audit (some (request.expectedRevision + 1)) now row
        entry)
      (builtOutbox : nextOutboxRow request prepared now eventId = some outbox)
      (fresh : ∀ other ∈ db.outbox, other.id ≠ outbox.id ∧ other.revision ≠ outbox.revision)
      (state : after.state = some stateRow) (outboxes : after.outbox = db.outbox ++ [outbox])
      (outcomes : after.outcomes = db.outcomes ++ [(.commit request, .committed
        { revision := request.expectedRevision + 1
          schemaVersion := request.schemaVersion
          state := prepared.state
          stateDigest := prepared.stateDigest
          updatedAt := now })])

variable {hash}

theorem effect_move {after : Database F} (sound : t.Sound hash db id)
    (move : Move hash db id t after) : Effect hash db after := by
  have quiet : ∀ base : Database F, base.state = db.state → base.head = db.head →
      base.audit = db.audit → base.history = db.history → base.outbox = db.outbox →
      base.outcomes = db.outcomes → Effect hash db base := by
    intro base state head audit history outbox outcomes
    exact .quiet state head audit history (Or.inl outbox)
      (fun _ member => Or.inl (outcomes ▸ member)) (fun _ member => outcomes ▸ member)
  have ended : ∀ outcome : StoreOutcome F, ¬outcome.Records →
      Effect hash db (db.finish id t outcome) := by
    intro outcome silent
    refine .quiet rfl rfl rfl rfl (Or.inl rfl) ?_ fun _ member => List.mem_append_left _ member
    intro result member
    rcases List.mem_append.mp member with before | single
    · exact Or.inl before
    · exact Or.inr (List.mem_singleton.mp single ▸ silent)
  cases move with
  | wait => exact quiet db rfl rfl rfl rfl rfl rfl
  | refuse error => exact ended _ False.elim
  | notFound => exact ended _ False.elim
  | chooseState => exact quiet _ rfl rfl rfl rfl rfl rfl
  | checked => exact quiet _ rfl rfl rfl rfl rfl rfl
  | lockState => exact quiet _ rfl rfl rfl rfl rfl rfl
  | lockHead => exact quiet _ rfl rfl rfl rfl rfl rfl
  | buildAudit => exact quiet _ rfl rfl rfl rfl rfl rfl
  | moveHead => exact quiet _ rfl rfl rfl rfl rfl rfl
  | buildOutbox => exact quiet _ rfl rfl rfl rfl rfl rfl
  | lockRow => exact quiet _ rfl rfl rfl rfl rfl rfl
  | update asked =>
      refine .quiet rfl rfl rfl rfl (Or.inr ⟨t.request, rfl⟩) ?_
        fun _ member => List.mem_append_left _ member
      intro result member
      rcases List.mem_append.mp member with before | single
      · exact Or.inl before
      · exact Or.inr (List.mem_singleton.mp single ▸ False.elim)
  | record row entry outbox outcome here ends =>
      obtain ⟨-, event, about, eventId, asks, built⟩ :=
        sound.audit (row, entry) (by rw [here]; rfl)
      have outboxes := sound.outbox row entry outbox here
      unfold HoldsOutbox at outboxes
      rcases ends with ⟨request, prepared, asked, ready, rfl⟩ | ⟨audit, revision, asked, rfl⟩
      · rw [asked] at outboxes asks
        obtain ⟨rfl, rfl⟩ := Prod.mk.inj (Option.some.inj asks)
        have holds := sound.state (by rw [here]; rfl) request asked
        obtain ⟨prepared', stateRow, ready', pending, builtState⟩ := holds.pending
        obtain rfl : prepared = prepared' := Option.some.inj (ready.symm.trans ready')
        obtain ⟨other, outboxRow, outboxId, ready', rfl, builtOutbox, fresh⟩ := outboxes
        obtain rfl : prepared = other := Option.some.inj (ready.symm.trans ready')
        obtain ⟨checked, ready', prepares⟩ := sound.prepared request asked
        obtain rfl : prepared = checked := Option.some.inj (ready.symm.trans ready')
        refine .committed request prepared t.startedAt stateRow row entry outboxRow outboxId prepares
          holds.current builtState ⟨⟨eventId, built⟩, rfl, rfl, rfl⟩ builtOutbox fresh ?_ rfl ?_
        · show t.pendingState.or db.state = some stateRow
          rw [pending]
          rfl
        · show db.outcomes ++ [(t.request, _)] = _
          rw [asked]
      · rw [asked] at outboxes asks
        obtain ⟨rfl, rfl⟩ := Prod.mk.inj (Option.some.inj asks)
        obtain rfl : outbox = none := outboxes
        refine .appended audit revision t.startedAt row entry
          ⟨⟨eventId, built⟩, rfl, rfl, rfl⟩ ?_ (List.append_nil _) ?_
        · show t.pendingState.or db.state = db.state
          rw [sound.unchanged audit revision asked]
          rfl
        · show db.outcomes ++ [(t.request, _)] = _
          rw [asked]

/-- **What a step does.** -/
theorem effect_step (sound : db.Sound hash) (action : StoreAction F) :
    Effect hash db (db.step hash action) := by
  have quiet : ∀ base : Database F, base.state = db.state → base.head = db.head →
      base.audit = db.audit → base.history = db.history → base.outbox = db.outbox →
      base.outcomes = db.outcomes → Effect hash db base := by
    intro base state head audit history outbox outcomes
    exact .quiet state head audit history (Or.inl outbox)
      (fun _ member => Or.inl (outcomes ▸ member)) (fun _ member => outcomes ▸ member)
  cases action with
  | start id request now =>
      show Effect hash db (db.start id hash request now)
      unfold Database.start
      simp only
      split
      · exact quiet db rfl rfl rfl rfl rfl rfl
      · split
        next arguments =>
          split
          next error refused =>
            refine .quiet rfl rfl rfl rfl (Or.inl rfl) ?_
              fun _ member => List.mem_append_left _ member
            intro result member
            rcases List.mem_append.mp member with before | single
            · exact Or.inl before
            · exact Or.inr (List.mem_singleton.mp single ▸ False.elim)
          · exact quiet _ rfl rfl rfl rfl rfl rfl
        · exact quiet _ rfl rfl rfl rfl rfl rfl
  | advance id eventId =>
      cases found : db.transactions id with
      | none =>
          show Effect hash db (db.advance id hash eventId)
          unfold Database.advance
          rw [found]
          exact quiet db rfl rfl rfl rfl rfl rfl
      | some t => exact effect_move (sound id t found) (move_advance (sound id t found) found)
  | abort id =>
      show Effect hash db (db.abort id)
      unfold Database.abort
      split
      · exact quiet db rfl rfl rfl rfl rfl rfl
      next t found => exact effect_move (sound id t found) (.refuse _)

theorem sound_empty : (Database.empty : Database F).Sound hash :=
  fun _ _ here => nomatch here

theorem sound_run (hash : List ℕ → Text) (actions : List (StoreAction F)) :
    (run (Database.step hash) .empty actions).Sound hash :=
  run_invariant_always (I := fun db : Database F => db.Sound hash)
    (fun _ action sound => sound.step action) sound_empty

/-- A property of the tables that every effect keeps holds after every run. -/
theorem run_of_effect {I : Database F → Prop} (empty : I .empty)
    (effect : ∀ db after, I db → Effect hash db after → I after)
    (actions : List (StoreAction F)) : I (run (Database.step hash) .empty actions) := by
  have both : (run (Database.step hash) .empty actions).Sound hash ∧
      I (run (Database.step hash) .empty actions) :=
    run_invariant_always (I := fun db : Database F => db.Sound hash ∧ I db)
      (fun db action holds => ⟨holds.1.step action,
        effect db _ holds.2 (effect_step holds.1 action)⟩) ⟨sound_empty, empty⟩
  exact both.2

end ImposbroSearch.ControlPlane.AuditStore
