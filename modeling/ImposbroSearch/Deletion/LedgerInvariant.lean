import ImposbroSearch.Deletion.LedgerStore
import ImposbroSearch.Publishing.StoreAgreement

/-!
# The ledger follows the outbox

An operation either leaves outbox and tombstones alone, or inserts one row. A deletion
gets the next sequence of its identity, so its tombstone is later than the one it takes
over; a tombstone that is registered again is never later than the stored one.
-/

namespace ImposbroSearch.Deletion

open ImposbroSearch.Foundation ImposbroSearch.Indexing ImposbroSearch.Publishing

variable {Doc : Type}

/-! ## Ledger rows over one operation -/

namespace DeletionRecord

variable {before after : DeletionRecord}

theorem Outlasts.refl (record : DeletionRecord) : record.Outlasts record :=
  ⟨le_rfl, fun limit bound => ⟨limit, bound, le_rfl⟩⟩

theorem SameHold.refl (record : DeletionRecord) : record.SameHold record := ⟨rfl, rfl⟩

/-- The later of two retentions, of which none is later than any. -/
theorem outlasts_recordOver (registration : TombstoneRegistration) (now : ℕ)
    (older : before.tombstoneSequence < registration.tombstoneSequence) :
    before.Outlasts (registration.recordOver before now) where
  sequence := older.le
  retention := by
    intro limit bound
    change laterRetention before.retentionUntil registration.retentionUntil = some limit at bound
    cases first : before.retentionUntil with
    | none =>
        rw [first] at bound
        cases bound
    | some current =>
        cases second : registration.retentionUntil with
        | none =>
            rw [first, second] at bound
            cases bound
        | some requested =>
            rw [first, second] at bound
            obtain rfl := Option.some.inj bound
            exact ⟨current, rfl, le_max_left _ _⟩

/-- What the row of a tombstone shares with the row of its event. -/
def tombstone (record : DeletionRecord) : ℕ × String × String :=
  (record.tombstoneSequence, record.eventId, record.eventDigest)

end DeletionRecord

namespace DeletionLedger

variable {ledger next : DeletionLedger} {registration : TombstoneRegistration}
  {record : DeletionRecord} {now : ℕ} {identityHash key : String}

theorem Sound.find_iff (sound : ledger.Sound) :
    ledger.find key = some record ↔ record ∈ ledger.records ∧ record.identityHash = key := by
  constructor
  · exact mem_of_find
  · rintro ⟨member, rfl⟩
    exact sound.find member

/-- The rows of the other identities stay. -/
theorem TakesOver.find (takes : TakesOver ledger next registration record now)
    (sound : ledger.Sound) (kept : next.Sound)
    (named : record.identityHash = registration.identityHash) (key : String) :
    next.find key =
      if key = registration.identityHash then some record else ledger.find key := by
  split_ifs with here
  · exact kept.find_iff.mpr ⟨(takes.records record).mpr (Or.inl rfl), named.trans here.symm⟩
  · ext other
    rw [kept.find_iff, sound.find_iff, takes.records]
    constructor
    · rintro ⟨rfl | ⟨stored, -⟩, rfl⟩
      · exact absurd named here
      · exact ⟨stored, rfl⟩
    · rintro ⟨stored, rfl⟩
      exact ⟨Or.inr ⟨stored, here⟩, rfl⟩

theorem find_updateRecord {update : DeletionRecord → DeletionRecord} (keeps : KeepsTombstone update)
    (key : String) : (ledger.updateRecord identityHash update).find key =
      (ledger.find key).map fun record =>
        if record.identityHash = identityHash then update record else record := by
  unfold updateRecord DeletionLedger.find
  rw [List.find?_map]
  congr 2
  funext record
  rw [Function.comp_apply, (keeps.ite identityHash record).1]

theorem registerTombstone_stale {message : String}
    (stale : ledger.registerTombstone registration now = .error (.staleTombstone message)) :
    ∃ current, ledger.find registration.identityHash = some current ∧
      registration.tombstoneSequence < current.tombstoneSequence := by
  unfold registerTombstone at stale
  split at stale
  · cases stale
  · split at stale
    next current found =>
      split at stale
      next older => exact ⟨current, found, older⟩
      · split at stale
        · split at stale
          · cases stale
          · cases stale
        · cases stale
    · cases stale

/-- What every operation does to the row of an identity. -/
def Evolves (ledger next : DeletionLedger) : Prop :=
  ∀ key record, ledger.find key = some record →
    ∃ after, next.find key = some after ∧ record.Outlasts after

/-- What every operation but a legal hold does to it. -/
def SameHolds (ledger next : DeletionLedger) (key : String) : Prop :=
  ∀ record after, ledger.find key = some record → next.find key = some after →
    record.SameHold after

theorem Evolves.refl (ledger : DeletionLedger) : Evolves ledger ledger :=
  fun _ record found => ⟨record, found, .refl _⟩

theorem SameHolds.refl (ledger : DeletionLedger) (key : String) : SameHolds ledger ledger key := by
  intro record after found same
  rw [found] at same
  obtain rfl := Option.some.inj same
  exact .refl _

/-- **A registration** lengthens the suppression, and keeps a hold. -/
theorem registerTombstone_evolves (sound : ledger.Sound)
    (registered : ledger.registerTombstone registration now = .ok (record, next)) :
    Evolves ledger next ∧ ∀ key, SameHolds ledger next key := by
  have kept := registerTombstone_sound sound registered
  obtain ⟨-, ⟨rfl, -⟩ | ⟨source, takes⟩⟩ := registerTombstone_ok sound registered
  · exact ⟨.refl _, .refl _⟩
  · have named : record.identityHash = registration.identityHash := by
      rcases source with ⟨current, -, -, rfl⟩ | ⟨-, rfl⟩
      · rfl
      · rfl
    have find := takes.find sound kept named
    constructor
    · intro key before found
      rw [find]
      split_ifs with here
      · subst here
        rcases source with ⟨current, stored, older, rfl⟩ | ⟨missing, -⟩
        · rw [found] at stored
          obtain rfl := Option.some.inj stored
          exact ⟨_, rfl, DeletionRecord.outlasts_recordOver registration now older⟩
        · rw [missing] at found
          cases found
      · exact ⟨before, found, .refl _⟩
    · intro key before after found later
      rw [find] at later
      split_ifs at later with here
      · subst here
        obtain rfl := Option.some.inj later
        rcases source with ⟨current, stored, -, rfl⟩ | ⟨missing, -⟩
        · rw [found] at stored
          obtain rfl := Option.some.inj stored
          exact ⟨rfl, rfl⟩
        · rw [missing] at found
          cases found
      · rw [found] at later
        obtain rfl := Option.some.inj later
        exact .refl _

/-- An update that leaves the event and the retention of a row alone. -/
structure KeepsEvent (update : DeletionRecord → DeletionRecord) : Prop where
  tombstone : KeepsTombstone update
  event : ∀ record, (update record).eventId = record.eventId ∧
    (update record).eventDigest = record.eventDigest
  retention : ∀ record, (update record).retentionUntil = record.retentionUntil

theorem KeepsEvent.evolves {update : DeletionRecord → DeletionRecord} (keeps : KeepsEvent update) :
    Evolves ledger (ledger.updateRecord identityHash update) := by
  intro key record found
  rw [find_updateRecord keeps.tombstone, found]
  refine ⟨_, rfl, ?_⟩
  simp only
  split_ifs
  · refine ⟨(keeps.tombstone record).2.ge, fun limit bound => ⟨limit, ?_, le_rfl⟩⟩
    rwa [← keeps.retention]
  · exact .refl _

/-- A receipt writes one ledger row. -/
theorem recordTarget_updates {targetId status receipt : String}
    {tombstoneSequence checkpointSequence : ℕ}
    (recorded : ledger.recordTarget identityHash targetId tombstoneSequence checkpointSequence status
      receipt now = .ok next) :
    ∃ update, KeepsEvent update ∧ (∀ record : DeletionRecord, record.SameHold (update record)) ∧
      ∀ key, next.find key = (ledger.updateRecord identityHash update).find key := by
  obtain ⟨received, -, -, -, -, rfl⟩ := recordTarget_ok recorded
  refine ⟨fun record =>
    { record with
      convergedAt := _
      lastVerifiedAt := some now
      updatedAt := now }, ?_, fun record => ⟨rfl, rfl⟩, fun key => rfl⟩
  exact ⟨fun record => ⟨rfl, rfl⟩, fun record => ⟨rfl, rfl⟩, fun record => rfl⟩

/-- So does a legal hold. -/
theorem setLegalHold_updates {enabled : Bool} {reference : String}
    (held : ledger.setLegalHold identityHash enabled reference now = .ok next) :
    ∃ update, KeepsEvent update ∧ next = ledger.updateRecord identityHash update := by
  refine ⟨fun record =>
    { record with
      legalHold := enabled
      legalHoldReference := some reference
      updatedAt := now }, ?_, setLegalHold_ok held⟩
  exact ⟨fun record => ⟨rfl, rfl⟩, fun record => ⟨rfl, rfl⟩, fun record => rfl⟩

/-- Each identity has the tombstone it had. -/
def SameTombstones (ledger next : DeletionLedger) : Prop :=
  ∀ key, (next.find key).map DeletionRecord.tombstone =
    (ledger.find key).map DeletionRecord.tombstone

theorem KeepsEvent.same {update : DeletionRecord → DeletionRecord} (keeps : KeepsEvent update) :
    SameTombstones ledger (ledger.updateRecord identityHash update) := by
  intro key
  rw [find_updateRecord keeps.tombstone, Option.map_map]
  congr 1
  funext record
  simp only [Function.comp_apply]
  split_ifs
  · exact Prod.ext (keeps.tombstone record).2 (Prod.ext (keeps.event record).1 (keeps.event record).2)
  · rfl

end DeletionLedger

/-! ## The outbox and the tombstones -/

namespace LedgerStore

open DeletionLedger

variable (digest : EventPayload Doc → String)

/-- The row of the ledger is the tombstone of the outbox row. -/
structure Buries (row : EventRow Doc) (record : DeletionRecord) : Prop where
  deletion : IsDeletion row
  identityHash : row.identityHash = record.identityHash
  tombstone : record.tombstone = (row.sequence, row.eventId, digest row.payload)

/-- Both sets of tables are sound; each tombstone is that of a deletion in the outbox,
and each deletion in the outbox is no later than a tombstone. -/
structure Sound (state : LedgerStore Doc) : Prop where
  tables : state.events.tables.Sound
  ledger : state.ledger.Sound
  positions : ∀ row ∈ state.events.tables.outbox, row.globalPosition < state.events.nextPosition
  recorded : ∀ record ∈ state.ledger.records, ∃ row ∈ state.events.tables.outbox,
    Buries digest row record
  covered : ∀ row ∈ state.events.tables.outbox, IsDeletion row → ∃ record ∈ state.ledger.records,
    record.identityHash = row.identityHash ∧ row.sequence ≤ record.tombstoneSequence

theorem sound_empty : (empty : LedgerStore Doc).Sound digest where
  tables := EventTables.sound_empty
  ledger := DeletionLedger.sound_empty
  positions := by simp [empty, PostgresStore.empty, EventTables.empty]
  recorded := by simp [empty, DeletionLedger.empty]
  covered := by simp [empty, PostgresStore.empty, EventTables.empty]

variable {digest} {canonical : Doc → String} {state : LedgerStore Doc} {record : DeletionRecord}
  {identityHash : String}

theorem replayAllowed_of_le {ledger : DeletionLedger} {sequence : ℤ}
    (found : ledger.find identityHash = some record) (le : sequence ≤ record.tombstoneSequence) :
    ledger.replayAllowed identityHash sequence ≠ .ok true := by
  unfold replayAllowed shouldSuppress
  split_ifs
  · intro allowed
    cases allowed
  · rw [found]
    simp [Except.map, le]

/-- **A sound state suppresses what it should.** -/
theorem Sound.suppresses (sound : state.Sound digest) : state.Suppresses where
  highest key record found := by
    obtain ⟨member, named⟩ := mem_of_find found
    constructor
    · obtain ⟨row, stored, buries⟩ := sound.recorded record member
      exact ⟨row, stored, buries.deletion, buries.identityHash.trans named,
        (congrArg Prod.fst buries.tombstone).symm⟩
    · rintro sequence ⟨row, stored, deletion, rfl, rfl⟩
      obtain ⟨other, otherMember, same, le⟩ := sound.covered row stored deletion
      rwa [sound.ledger.eq_of_hash otherMember member (same.trans named.symm)] at le
  complete key missing := by
    ext sequence
    refine iff_of_false ?_ (Set.notMem_empty sequence)
    rintro ⟨row, stored, deletion, rfl, -⟩
    obtain ⟨record, member, same, -⟩ := sound.covered row stored deletion
    exact find_eq_none.mp missing record member same
  converged key record found := by
    obtain ⟨member, rfl⟩ := mem_of_find found
    rw [pendingRows_eq_nil]
    exact sound.ledger.converged record member
  receipts target stored := by
    obtain ⟨record, member, same, current⟩ := sound.ledger.current target stored
    refine ⟨record, same ▸ sound.ledger.find member, current.symm, fun received => ?_⟩
    rcases sound.ledger.receipts target stored with ⟨-, -, missing⟩ | ⟨-, -, checkpoint, kept, le⟩
    · exact absurd missing received
    · exact ⟨checkpoint, kept, current ▸ le⟩
  replay key record sequence found le := replayAllowed_of_le found le

/-- A row of a sound state is below the next sequence of its identity. -/
theorem Sound.tombstone_le (sound : state.Sound digest)
    (found : state.ledger.find identityHash = some record) :
    record.tombstoneSequence ≤ state.events.tables.lastSequence identityHash := by
  obtain ⟨member, rfl⟩ := mem_of_find found
  obtain ⟨row, stored, buries⟩ := sound.recorded record member
  have le := sequence_le sound.tables stored
  rw [buries.identityHash] at le
  exact (congrArg Prod.fst buries.tombstone).trans_le le

/-- The ledger changes, and no tombstone does. -/
theorem Sound.of_sameTombstones (sound : state.Sound digest) {ledger : DeletionLedger}
    (kept : ledger.Sound) (same : SameTombstones state.ledger ledger) :
    ({ state with ledger } : LedgerStore Doc).Sound digest where
  tables := sound.tables
  ledger := kept
  positions := sound.positions
  recorded after member := by
    have found := same after.identityHash
    rw [kept.find member, Option.map_some] at found
    obtain ⟨before, stored, tombstone⟩ := Option.map_eq_some_iff.mp found.symm
    obtain ⟨beforeMember, named⟩ := mem_of_find stored
    obtain ⟨row, here, buries⟩ := sound.recorded before beforeMember
    exact ⟨row, here, buries.deletion, buries.identityHash.trans named,
      tombstone.symm.trans buries.tombstone⟩
  covered row stored deletion := by
    obtain ⟨before, member, named, le⟩ := sound.covered row stored deletion
    have found := same before.identityHash
    rw [sound.ledger.find member, Option.map_some] at found
    obtain ⟨after, here, tombstone⟩ := Option.map_eq_some_iff.mp found
    obtain ⟨afterMember, afterNamed⟩ := mem_of_find here
    exact ⟨after, afterMember, afterNamed.trans named,
      le.trans_eq (congrArg Prod.fst tombstone).symm⟩

/-! ## One operation -/

/-- Tables with the same events, and perhaps a new head. -/
structure Headed (state : LedgerStore Doc) (tables : EventTables Doc) : Prop where
  sound : tables.Sound
  outbox : tables.outbox = state.events.tables.outbox
  last : ∀ identityHash,
    tables.lastSequence identityHash = state.events.tables.lastSequence identityHash

theorem Sound.headed (sound : state.Sound digest) : state.Headed state.events.tables :=
  ⟨sound.tables, rfl, fun _ => rfl⟩

theorem Sound.headed_ensureHead (sound : state.Sound digest) (identity : EventIdentity) :
    state.Headed (state.events.tables.ensureHead identity) where
  sound := sound.tables.ensureHead identity
  outbox := rfl
  last key := by
    unfold EventTables.lastSequence EventTables.ensureHead
    simp only
    split_ifs with here
    · subst here
      cases state.events.tables.heads identity.logicalKey with
      | none => rfl
      | some head => rfl
    · rfl

/-- The operation leaves events and ledger alone. -/
structure Rests (state : LedgerStore Doc) (result : LedgerAnswer Doc × LedgerStore Doc) : Prop where
  ledger : result.2.ledger = state.ledger
  headed : state.Headed result.2.events.tables
  drawn : state.events.nextPosition ≤ result.2.events.nextPosition
  notStale : ∀ message, result.1 ≠ .ledgerError (.staleTombstone message)

variable (digest) in
/-- The operation inserts `row`, and registers its tombstone when it is a deletion. -/
structure Inserts (state : LedgerStore Doc) (result : LedgerAnswer Doc × LedgerStore Doc)
    (row : EventRow Doc) : Prop where
  answer : result.1 = .event (rowToEvent row)
  tables : ∃ tables, state.Headed tables ∧ result.2.events.tables = tables.insertEvent row
  position : row.globalPosition = state.events.nextPosition
  drawn : result.2.events.nextPosition = state.events.nextPosition + 1
  next : row.sequence = state.events.tables.lastSequence row.identityHash + 1
  fresh : ∀ other ∈ state.events.tables.outbox, other.idempotencyKeyHash ≠ row.idempotencyKeyHash
  hashed : row.payload.event.identity.logicalKey = row.identityHash
  ledger : (¬IsDeletion row ∧ result.2.ledger = state.ledger) ∨
    (IsDeletion row ∧ ∃ registration now record, Registers digest row registration ∧
      state.ledger.registerTombstone registration now = .ok (record, result.2.ledger))

section Prepare

variable {tables : EventTables Doc} {draft : TracedDraft Doc} {eventId : String} {now : ℕ}

/-- **An insertion goes through or takes everything back.** The new sequence is past
every tombstone, so the ledger does not find the registration stale. -/
theorem Sound.insertOutboxEvent (sound : state.Sound digest) (headed : state.Headed tables) :
    let result := state.insertOutboxEvent canonical digest tables draft eventId
      (tables.lastSequence draft.identity.logicalKey) now
    state.Rests result ∨ ∃ row, Inserts digest state result row := by
  unfold LedgerStore.insertOutboxEvent
  simp only
  set row := insertedRow canonical draft eventId (tables.lastSequence draft.identity.logicalKey) now
    state.events.nextPosition with here
  have next : row.sequence = state.events.tables.lastSequence row.identityHash + 1 :=
    congrArg (· + 1) (headed.last draft.identity.logicalKey)
  split
  · exact Or.inl ⟨rfl, sound.headed, Nat.le_succ _, by simp⟩
  next unique =>
    have fresh : ∀ other ∈ state.events.tables.outbox,
        other.idempotencyKeyHash ≠ row.idempotencyKeyHash := by
      intro other stored
      exact (not_not.mp unique other (headed.outbox ▸ stored)).2.1
    split
    next upsert =>
      refine Or.inr ⟨row, rfl, ⟨tables, headed, rfl⟩, rfl, rfl, next, fresh, rfl, Or.inl ⟨?_, rfl⟩⟩
      exact not_not.mpr upsert
    next deletion =>
      split
      next error refused =>
        refine Or.inl ⟨rfl, sound.headed, Nat.le_succ _, ?_⟩
        intro message stale
        obtain rfl : error = .staleTombstone message := by simpa using stale
        obtain ⟨current, found, older⟩ := registerTombstone_stale refused
        have le := sound.tombstone_le found
        change row.sequence < current.tombstoneSequence at older
        change current.tombstoneSequence ≤ state.events.tables.lastSequence row.identityHash at le
        omega
      next record ledger registered =>
        exact Or.inr ⟨row, rfl, ⟨tables, headed, rfl⟩, rfl, rfl, next, fresh, rfl,
          Or.inr ⟨deletion, _, now, record, ⟨deletion, rfl, rfl, rfl, rfl⟩, registered⟩⟩

theorem verifyExisting_ne_ledgerError {row : EventRow Doc} {error : LedgerError} :
    verifyExisting canonical row draft ≠ .ledgerError error := by
  unfold verifyExisting
  split
  · simp
  · simp

/-- **`prepare`** finds the key, refuses the draft, or inserts. -/
theorem Sound.prepare (sound : state.Sound digest) :
    let result := state.prepare canonical digest draft eventId now
    state.Rests result ∨ ∃ row, Inserts digest state result row := by
  unfold LedgerStore.prepare
  simp only
  split
  · exact Or.inl ⟨rfl, sound.headed, le_rfl, fun _ => verifyExisting_ne_ledgerError⟩
  · split
    · exact Or.inl ⟨rfl, sound.headed, le_rfl, by simp⟩
    · have headed := sound.headed_ensureHead draft.identity
      split
      · exact Or.inl ⟨rfl, sound.headed, le_rfl, by simp⟩
      next head found =>
        have last : (state.events.tables.ensureHead draft.identity).lastSequence
            draft.identity.logicalKey = head.lastSequence := by
          unfold EventTables.lastSequence
          rw [found]
          rfl
        split
        · exact Or.inl ⟨rfl, headed, le_rfl, fun _ => verifyExisting_ne_ledgerError⟩
        · rw [← last]
          exact sound.insertOutboxEvent headed

/-- **`prepare_latest_repair`** does so for its source. -/
theorem Sound.prepareLatestRepair (sound : state.Sound digest) {repair : TracedRepair} :
    let result := state.prepareLatestRepair canonical digest repair eventId now
    state.Rests result ∨ ∃ row, Inserts digest state result row := by
  unfold LedgerStore.prepareLatestRepair
  simp only
  split
  · exact Or.inl ⟨rfl, sound.headed, le_rfl, by simp⟩
  next head found =>
    split
    · exact Or.inl ⟨rfl, sound.headed, le_rfl, by simp⟩
    · split
      · exact Or.inl ⟨rfl, sound.headed, le_rfl, by simp⟩
      next source newest =>
        have stored := List.mem_filter.mp (EventTables.newestRow_mem newest)
        have named : (buildRepairDraft repair (rowToEvent source)).identity.logicalKey =
            repair.identityKey :=
          (sound.tables.hashed source stored.1).trans (by simpa using stored.2)
        have last : state.events.tables.lastSequence repair.identityKey = head.lastSequence := by
          unfold EventTables.lastSequence
          rw [found]
          rfl
        rw [← last, ← named]
        exact sound.insertOutboxEvent sound.headed

end Prepare

/-! ## What an operation preserves -/

section Step

variable {result : LedgerAnswer Doc × LedgerStore Doc} {row : EventRow Doc}

theorem Headed.mem_outbox {tables : EventTables Doc} (headed : state.Headed tables) :
    row ∈ tables.outbox ↔ row ∈ state.events.tables.outbox := by
  rw [headed.outbox]

theorem Rests.sound (rests : state.Rests result) (sound : state.Sound digest) :
    result.2.Sound digest where
  tables := rests.headed.sound
  ledger := rests.ledger ▸ sound.ledger
  positions other stored :=
    (sound.positions other (rests.headed.mem_outbox.mp stored)).trans_le rests.drawn
  recorded record member := by
    rw [rests.ledger] at member
    obtain ⟨other, stored, buries⟩ := sound.recorded record member
    exact ⟨other, rests.headed.mem_outbox.mpr stored, buries⟩
  covered other stored deletion := by
    rw [rests.ledger]
    exact sound.covered other (rests.headed.mem_outbox.mp stored) deletion

/-- The record of an accepted registration carries its tombstone. -/
theorem tombstone_registered {registration : TombstoneRegistration} {now : ℕ}
    {ledger : DeletionLedger}
    (source : (∃ current, ledger.find registration.identityHash = some current ∧
        current.tombstoneSequence < registration.tombstoneSequence ∧
        record = registration.recordOver current now) ∨
      (ledger.find registration.identityHash = none ∧ record = registration.record now)) :
    record.identityHash = registration.identityHash ∧ record.tombstone =
      (registration.tombstoneSequence, registration.eventId, registration.eventDigest) := by
  rcases source with ⟨current, -, -, rfl⟩ | ⟨-, rfl⟩
  · exact ⟨rfl, rfl⟩
  · exact ⟨rfl, rfl⟩

/-- **The tombstone of an inserted deletion** takes over the row of its identity. -/
theorem Sound.buried (sound : state.Sound digest) {registration : TombstoneRegistration} {now : ℕ}
    {ledger : DeletionLedger}
    (next : row.sequence = state.events.tables.lastSequence row.identityHash + 1)
    (registers : Registers digest row registration)
    (registered : state.ledger.registerTombstone registration now = .ok (record, ledger)) :
    Buries digest row record ∧
      ∀ key, ledger.find key = if key = row.identityHash then some record
        else state.ledger.find key := by
  obtain ⟨deletion, identityHash, sequence, eventId, eventDigest⟩ := registers
  have kept := registerTombstone_sound sound.ledger registered
  obtain ⟨-, ⟨-, found, same, -⟩ | ⟨source, takes⟩⟩ := registerTombstone_ok sound.ledger registered
  · have le := sound.tombstone_le found
    rw [identityHash] at le
    omega
  · obtain ⟨named, tombstone⟩ := tombstone_registered source
    constructor
    · refine ⟨deletion, (named.trans identityHash).symm, ?_⟩
      rw [tombstone, sequence, eventId, eventDigest]
    · rw [← identityHash]
      exact takes.find sound.ledger kept named

theorem Inserts.mem_outbox (inserts : Inserts digest state result row) {other : EventRow Doc} :
    other ∈ result.2.events.tables.outbox ↔ other ∈ state.events.tables.outbox ∨ other = row := by
  obtain ⟨tables, headed, after⟩ := inserts.tables
  rw [after]
  show other ∈ tables.outbox ++ [row] ↔ _
  rw [List.mem_append, List.mem_singleton, headed.outbox]

theorem Inserts.ledger_sound (inserts : Inserts digest state result row)
    (sound : state.Sound digest) : result.2.ledger.Sound := by
  rcases inserts.ledger with ⟨-, same⟩ | ⟨-, registration, now, record, -, registered⟩
  · exact same ▸ sound.ledger
  · exact registerTombstone_sound sound.ledger registered

/-- **An insertion keeps outbox and ledger together.** -/
theorem Inserts.sound (inserts : Inserts digest state result row) (sound : state.Sound digest) :
    result.2.Sound digest := by
  have kept := inserts.ledger_sound sound
  constructor
  case tables =>
    obtain ⟨tables, headed, after⟩ := inserts.tables
    rw [after]
    refine headed.sound.insertEvent ?_ ?_ ?_ inserts.hashed
    · rw [headed.last]
      exact inserts.next
    · intro other stored
      rw [inserts.position]
      exact sound.positions other (headed.mem_outbox.mp (List.mem_of_mem_filter stored))
    · intro other stored
      exact inserts.fresh other (headed.mem_outbox.mp stored)
  case ledger => exact kept
  case positions =>
    intro other stored
    rw [inserts.drawn]
    rcases inserts.mem_outbox.mp stored with old | rfl
    · exact Nat.lt_succ_of_lt (sound.positions other old)
    · rw [inserts.position]
      exact Nat.lt_succ_self _
  case recorded =>
    intro after member
    rcases inserts.ledger with ⟨-, same⟩ | ⟨-, registration, now, record, registers, registered⟩
    · rw [same] at member
      obtain ⟨other, stored, buries⟩ := sound.recorded after member
      exact ⟨other, inserts.mem_outbox.mpr (Or.inl stored), buries⟩
    · obtain ⟨buries, find⟩ := sound.buried inserts.next registers registered
      have found := kept.find member
      rw [find] at found
      split_ifs at found with here
      · obtain rfl := Option.some.inj found
        exact ⟨row, inserts.mem_outbox.mpr (Or.inr rfl), buries⟩
      · obtain ⟨other, stored, buried⟩ := sound.recorded after (mem_of_find found).1
        exact ⟨other, inserts.mem_outbox.mpr (Or.inl stored), buried⟩
  case covered =>
    intro other stored deletion
    rcases inserts.ledger with
      ⟨upsert, same⟩ | ⟨-, registration, now, record, registers, registered⟩
    · rw [same]
      rcases inserts.mem_outbox.mp stored with old | rfl
      · exact sound.covered other old deletion
      · exact absurd deletion upsert
    · obtain ⟨buries, find⟩ := sound.buried inserts.next registers registered
      have sequence : record.tombstoneSequence = row.sequence := congrArg Prod.fst buries.tombstone
      have new : record ∈ result.2.ledger.records ∧ record.identityHash = row.identityHash :=
        mem_of_find ((find row.identityHash).trans (if_pos rfl))
      rcases inserts.mem_outbox.mp stored with old | rfl
      · by_cases here : other.identityHash = row.identityHash
        · -- The sequence of the new row is past those of its identity.
          refine ⟨record, new.1, new.2.trans here.symm, ?_⟩
          have le := sequence_le sound.tables old
          rw [here] at le
          have next := inserts.next
          omega
        · obtain ⟨before, member, named, le⟩ := sound.covered other old deletion
          have found := find before.identityHash
          rw [if_neg (named ▸ here), sound.ledger.find member] at found
          exact ⟨before, (mem_of_find found).1, named, le⟩
      · exact ⟨record, new.1, new.2, sequence.ge⟩

theorem Inserts.together (inserts : Inserts digest state result row) (sound : state.Sound digest) :
    Together digest state result.2 := by
  refine Or.inr ⟨row, ?_, ?_, ?_⟩
  · obtain ⟨tables, headed, after⟩ := inserts.tables
    rw [after, ← headed.outbox]
    rfl
  · intro upsert
    rcases inserts.ledger with ⟨-, same⟩ | ⟨deletion, -⟩
    · exact same
    · exact absurd deletion upsert
  · intro deletion
    rcases inserts.ledger with ⟨upsert, -⟩ | ⟨-, registration, now, record, registers, registered⟩
    · exact absurd deletion upsert
    · obtain ⟨buries, find⟩ := sound.buried inserts.next registers registered
      obtain ⟨sequence, rest⟩ := Prod.mk.inj buries.tombstone
      obtain ⟨eventId, eventDigest⟩ := Prod.mk.inj rest
      exact ⟨record, (find row.identityHash).trans (if_pos rfl), sequence, eventId, eventDigest⟩

/-- Without an insertion and with the same ledger, nothing moves. -/
theorem keeps_of_same {action : LedgerAction Doc} (ledger : result.2.ledger = state.ledger)
    (outbox : result.2.events.tables.outbox = state.events.tables.outbox)
    (notStale : ∀ message, result.1 = .ledgerError (.staleTombstone message) →
      (∀ draft eventId, action.operation ≠ .prepare draft eventId) ∧
        ∀ repair eventId, action.operation ≠ .prepareLatestRepair repair eventId) :
    Keeps digest state action result where
  outlasts := by
    rw [ledger]
    exact Evolves.refl state.ledger
  holds key record after found later _ := by
    rw [ledger] at later
    exact SameHolds.refl state.ledger key record after found later
  together := Or.inl ⟨outbox, fun key => by rw [ledger]⟩
  refused _ := ⟨ledger, outbox⟩
  notStale := notStale

theorem Rests.keeps {action : LedgerAction Doc} (rests : state.Rests result) :
    Keeps digest state action result :=
  keeps_of_same rests.ledger rests.headed.outbox
    fun message stale => absurd stale (rests.notStale message)

theorem Inserts.keeps {action : LedgerAction Doc} (inserts : Inserts digest state result row)
    (sound : state.Sound digest) : Keeps digest state action result := by
  have evolves : Evolves state.ledger result.2.ledger ∧
      ∀ key, SameHolds state.ledger result.2.ledger key := by
    rcases inserts.ledger with ⟨-, same⟩ | ⟨-, registration, now, record, -, registered⟩
    · rw [same]
      exact ⟨.refl _, .refl _⟩
    · exact registerTombstone_evolves sound.ledger registered
  constructor
  case outlasts => exact evolves.1
  case holds => exact fun key record after found later _ => evolves.2 key record after found later
  case together => exact inserts.together sound
  case refused =>
    rintro (⟨error, refused⟩ | ⟨error, refused⟩)
    · rw [inserts.answer] at refused
      cases refused
    · rw [inserts.answer] at refused
      cases refused
  case notStale =>
    intro message stale
    rw [inserts.answer] at stale
    cases stale

/-- An operation of the ledger alone. -/
theorem Sound.updated (sound : state.Sound digest) {action : LedgerAction Doc}
    {ledger : DeletionLedger} (kept : ledger.Sound) (same : SameTombstones state.ledger ledger)
    (evolves : Evolves state.ledger ledger)
    (holds : ∀ key, SameHolds state.ledger ledger key ∨
      ∃ enabled reference, action.operation = .setLegalHold key enabled reference) :
    ({ state with ledger } : LedgerStore Doc).Sound digest ∧
      Keeps digest state action (.done, { state with ledger }) := by
  refine ⟨sound.of_sameTombstones kept same, ?_⟩
  constructor
  case outlasts => exact evolves
  case holds =>
    intro key record after found later other
    rcases holds key with holds | ⟨enabled, reference, here⟩
    · exact holds record after found later
    · exact absurd here (other enabled reference)
  case together =>
    refine Or.inl ⟨rfl, fun key => ?_⟩
    have tombstones := congrArg (Option.map Prod.fst) (same key)
    rwa [Option.map_map, Option.map_map] at tombstones
  case refused =>
    rintro (⟨error, refused⟩ | ⟨error, refused⟩)
    · cases refused
    · cases refused
  case notStale =>
    intro message stale
    cases stale

/-- A tombstone of the outbox is never later than the stored one. -/
theorem Sound.replay (sound : state.Sound digest) {registration : TombstoneRegistration} {now : ℕ}
    {ledger : DeletionLedger}
    (replays : ∃ row ∈ state.events.tables.outbox, Registers digest row registration)
    (registered : state.ledger.registerTombstone registration now = .ok (record, ledger)) :
    ledger = state.ledger := by
  obtain ⟨row, stored, deletion, identityHash, sequence, -⟩ := replays
  obtain ⟨covering, member, named, le⟩ := sound.covered row stored deletion
  have found := sound.ledger.find member
  rw [named, ← identityHash] at found
  obtain ⟨-, ⟨same, -⟩ | ⟨⟨current, here, older, -⟩ | ⟨missing, -⟩, -⟩⟩ :=
    registerTombstone_ok sound.ledger registered
  · exact same
  · rw [found] at here
    obtain rfl := Option.some.inj here
    omega
  · rw [found] at missing
    cases missing

/-- **One operation** keeps outbox and ledger together. -/
theorem Sound.perform (sound : state.Sound digest) {action : LedgerAction Doc}
    (replays : state.Replays digest action) :
    (state.perform canonical digest action).2.Sound digest ∧
      Keeps digest state action (state.perform canonical digest action) := by
  obtain ⟨operation, now⟩ := action
  cases operation with
  | prepare draft eventId =>
      rcases sound.prepare with rests | ⟨row, inserts⟩
      · exact ⟨rests.sound sound, rests.keeps⟩
      · exact ⟨inserts.sound sound, inserts.keeps sound⟩
  | prepareLatestRepair repair eventId =>
      rcases sound.prepareLatestRepair with rests | ⟨row, inserts⟩
      · exact ⟨rests.sound sound, rests.keeps⟩
      · exact ⟨inserts.sound sound, inserts.keeps sound⟩
  | register registration =>
      have elsewhere : ∀ message : String, (∀ draft eventId,
          (LedgerOperation.register registration : LedgerOperation Doc) ≠ .prepare draft eventId) ∧
          ∀ repair eventId, (LedgerOperation.register registration : LedgerOperation Doc) ≠
            .prepareLatestRepair repair eventId := by
        intro message
        exact ⟨by simp, by simp⟩
      unfold LedgerStore.perform register
      simp only
      split
      · exact ⟨sound, keeps_of_same rfl rfl fun message _ => elsewhere message⟩
      next record ledger registered =>
        obtain rfl := sound.replay (replays registration rfl) registered
        exact ⟨sound, keeps_of_same rfl rfl fun message _ => elsewhere message⟩
  | recordTarget identityHash targetId tombstoneSequence checkpointSequence status receipt =>
      unfold LedgerStore.perform updateLedger
      simp only
      split
      · exact ⟨sound, keeps_of_same rfl rfl fun message _ => ⟨by simp, by simp⟩⟩
      next ledger recorded =>
        obtain ⟨update, keeps, holds, find⟩ := recordTarget_updates recorded
        refine sound.updated (recordTarget_sound sound.ledger recorded) ?_ ?_ fun key => Or.inl ?_
        · intro key
          rw [find]
          exact keeps.same key
        · intro key before found
          rw [find]
          exact keeps.evolves key before found
        · intro before after found later
          rw [find, find_updateRecord keeps.tombstone, found] at later
          obtain rfl := Option.some.inj later
          simp only
          split_ifs
          · exact holds before
          · exact .refl _
  | setLegalHold identityHash enabled reference =>
      unfold LedgerStore.perform updateLedger
      simp only
      split
      · exact ⟨sound, keeps_of_same rfl rfl fun message _ => ⟨by simp, by simp⟩⟩
      next ledger held =>
        obtain ⟨update, keeps, rfl⟩ := setLegalHold_updates held
        refine sound.updated (setLegalHold_sound sound.ledger held) keeps.same keeps.evolves ?_
        intro key
        by_cases here : key = identityHash
        · exact Or.inr ⟨enabled, reference, by rw [here]⟩
        · refine Or.inl fun before after found later => ?_
          rw [find_updateRecord keeps.tombstone, found] at later
          obtain rfl := Option.some.inj later
          simp only
          rw [if_neg ((mem_of_find found).2 ▸ here)]
          exact .refl _

end Step

variable (canonical digest) in
theorem sound_run {actions : List (LedgerAction Doc)}
    (replays : Along (step canonical digest) (Replays digest) empty actions) :
    (run (step canonical digest) empty actions).Sound digest :=
  run_invariant (fun _ _ sound admitted => (sound.perform admitted).1) (sound_empty digest) replays

/-- **The deletion ledger.** In every state that operations reach, the ledger
suppresses what has been deleted, and the next operation lengthens suppressions only,
keeps holds that it does not set, and writes a deletion and its tombstone together. -/
theorem deletion_ledger_follows_outbox (canonical : Doc → String)
    (digest : EventPayload Doc → String) (actions : List (LedgerAction Doc))
    (replays : Along (step canonical digest) (Replays digest) empty actions) :
    let state := run (step canonical digest) empty actions
    state.Suppresses ∧ ∀ action, state.Replays digest action →
      Keeps digest state action (state.perform canonical digest action) := by
  intro state
  have sound := sound_run digest canonical replays
  exact ⟨sound.suppresses, fun action admitted => (sound.perform admitted).2⟩

/-! ## A document that is deleted twice -/

/-- A deletion of one document. -/
def deletionOf (idempotencyKey : String) : TracedDraft String where
  identity := { tenantId := "acme", collection := "docs", documentId := "1" }
  mutation := .delete none
  targetClusters := ["origin"]
  routingRevision := 1
  rolloutId := none
  idempotencyKey

/-- Its first tombstone is registered again and confirmed, and a hold is set before it
is deleted once more. -/
def deletedTwice : List (LedgerAction String) :=
  let draft := deletionOf "k1"
  let row := insertedRow (fun text => text) draft "evt:1" 0 1 1
  let registration := tombstoneRegistration (fun payload => payload.event.eventId) draft row 1
  [⟨.prepare draft "evt:1", 1⟩, ⟨.register registration, 2⟩,
    ⟨.recordTarget draft.identity.logicalKey "origin" 1 1 "applied" "receipt", 3⟩,
    ⟨.setLegalHold draft.identity.logicalKey true "case", 4⟩, ⟨.prepare (deletionOf "k2") "evt:2", 5⟩]

theorem deletion_ledger_follows_outbox_deletedTwice :
    (run (step (fun text => text) fun payload => payload.event.eventId) empty deletedTwice).Suppresses := by
  refine (deletion_ledger_follows_outbox (fun text => text) (fun payload => payload.event.eventId)
    deletedTwice ?_).1
  refine ⟨?_, ?_, ?_, ?_, ?_, trivial⟩
  · intro registration here
    cases here
  · intro registration here
    obtain rfl := LedgerOperation.register.inj here
    refine ⟨insertedRow (fun text => text) (deletionOf "k1") "evt:1" 0 1 1, ?_, ?_⟩
    · exact List.mem_singleton_self _
    · exact ⟨by decide, rfl, rfl, rfl, rfl⟩
  · intro registration here
    cases here
  · intro registration here
    cases here
  · intro registration here
    cases here

end LedgerStore

end ImposbroSearch.Deletion
