import ImposbroSearch.Deletion.Ledger

/-!
# Registering tombstones and receipts

A registration either finds its own tombstone or takes over the rows of its identity:
one ledger row and the target rows of the new tombstone, all pending. A receipt
touches one target row, and the ledger row is converged when it was the last one.
-/

namespace ImposbroSearch.Deletion

open ImposbroSearch.Publishing ImposbroSearch.Routing

namespace DeletionLedger

variable {ledger next : DeletionLedger} {registration : TombstoneRegistration}
  {record : DeletionRecord} {now : ℕ} {identityHash : String}

/-! ## Registrations -/

/-- `record` and the target rows of `registration` take the place of the rows of
their identity. -/
structure TakesOver (ledger next : DeletionLedger) (registration : TombstoneRegistration)
    (record : DeletionRecord) (now : ℕ) : Prop where
  records : ∀ other, other ∈ next.records ↔ other = record ∨
    (other ∈ ledger.records ∧ other.identityHash ≠ registration.identityHash)
  targets : ∀ target, target ∈ next.targets ↔ target ∈ registration.targetRows now ∨
    (target ∈ ledger.targets ∧ target.identityHash ≠ registration.identityHash)
  keys : (next.records.map DeletionRecord.identityHash).Nodup
  targetKeys : (next.targets.map fun target => (target.identityHash, target.targetId)).Nodup

theorem mem_targetRows {target : TargetRow} :
    target ∈ registration.targetRows now ↔ ∃ targetId ∈ registration.targetIds, target =
      { identityHash := registration.identityHash
        targetId
        tombstoneSequence := registration.tombstoneSequence
        updatedAt := now } := by
  simp [TombstoneRegistration.targetRows, eq_comm]

theorem targetRows_nodup : ((registration.targetRows now).map fun target =>
    (target.identityHash, target.targetId)).Nodup := by
  unfold TombstoneRegistration.targetRows
  rw [List.map_map]
  refine (uniqueTargets_nodup registration.targetIds).map fun first second same => ?_
  exact (Prod.mk.inj same).2

/-- An accepted registration has targets, and each can be one. -/
theorem targets_of_accepted (accepted : registration.refusal = none) :
    (∃ targetId, targetId ∈ registration.targetIds) ∧
      ∀ targetId ∈ registration.targetIds, IsTarget targetId := by
  unfold TombstoneRegistration.refusal at accepted
  split_ifs at accepted with tenant collection document event rollout positive revision targets
  push Not at targets
  exact ⟨List.exists_mem_of_ne_nil _ targets.1, targets.2⟩

variable (registration now) in
theorem filter_append_nodup (sound : ledger.Sound) :
    (((ledger.targets.filter fun target =>
      target.identityHash ≠ registration.identityHash) ++ registration.targetRows now).map
        fun target => (target.identityHash, target.targetId)).Nodup := by
  rw [List.map_append]
  refine List.Nodup.append ?_ targetRows_nodup ?_
  · exact sound.targetKeys.sublist (List.filter_sublist.map _)
  · intro key old new
    obtain ⟨target, kept, rfl⟩ := List.mem_map.mp old
    obtain ⟨added, here, same⟩ := List.mem_map.mp new
    obtain ⟨targetId, -, rfl⟩ := mem_targetRows.mp here
    have differs := (List.mem_filter.mp kept).2
    simp only [decide_eq_true_eq, ne_eq] at differs
    exact differs (Prod.mk.inj same).1.symm

theorem keys_updateRecord {update : DeletionRecord → DeletionRecord}
    (named : ∀ record ∈ ledger.records, (update record).identityHash = record.identityHash ∨
      record.identityHash ≠ identityHash) :
    (ledger.updateRecord identityHash update).records.map DeletionRecord.identityHash =
      ledger.records.map DeletionRecord.identityHash := by
  unfold updateRecord
  rw [List.map_map]
  refine List.map_congr_left fun record member => ?_
  simp only [Function.comp_apply]
  split_ifs with here
  · exact (named record member).resolve_right (not_not.mpr here)
  · rfl

/-- **What an accepted registration does.** -/
theorem registerTombstone_ok (sound : ledger.Sound)
    (registered : ledger.registerTombstone registration now = .ok (record, next)) :
    registration.refusal = none ∧
      ((next = ledger ∧ ledger.find registration.identityHash = some record ∧
          record.tombstoneSequence = registration.tombstoneSequence ∧
          record.eventId = registration.eventId) ∨
        ((∃ current, ledger.find registration.identityHash = some current ∧
            current.tombstoneSequence < registration.tombstoneSequence ∧
            record = registration.recordOver current now) ∨
          (ledger.find registration.identityHash = none ∧ record = registration.record now)) ∧
        TakesOver ledger next registration record now) := by
  unfold registerTombstone at registered
  split at registered
  · cases registered
  next accepted =>
    refine ⟨accepted, ?_⟩
    split at registered
    next current found =>
      obtain ⟨member, named⟩ := mem_of_find found
      split at registered
      · cases registered
      next notOlder =>
        split at registered
        next same =>
          split at registered
          · cases registered
          next identical =>
            cases registered
            push Not at identical
            exact Or.inl ⟨rfl, found, same.symm, identical.1⟩
        next differs =>
          cases registered
          refine Or.inr ⟨Or.inl ⟨current, found, by omega, rfl⟩, ?_⟩
          constructor
          · intro other
            rw [mem_updateRecord]
            constructor
            · rintro ⟨before, stored, rfl⟩
              split_ifs with here
              · exact Or.inl rfl
              · exact Or.inr ⟨stored, here⟩
            · rintro (rfl | ⟨stored, elsewhere⟩)
              · exact ⟨current, member, by rw [if_pos named]⟩
              · exact ⟨other, stored, by rw [if_neg elsewhere]⟩
          · intro target
            rw [List.mem_append, List.mem_filter, decide_eq_true_eq, or_comm]
          · rw [keys_updateRecord]
            · exact sound.keys
            · intro other _
              by_cases here : other.identityHash = registration.identityHash
              · exact Or.inl here.symm
              · exact Or.inr here
          · exact filter_append_nodup registration now sound
    next missing =>
      cases registered
      have fresh := find_eq_none.mp missing
      have unowned : ∀ target ∈ ledger.targets,
          target.identityHash ≠ registration.identityHash := by
        intro target stored
        obtain ⟨owner, member, same, -⟩ := sound.current target stored
        exact same ▸ fresh owner member
      refine Or.inr ⟨Or.inr ⟨missing, rfl⟩, ?_⟩
      constructor
      · intro other
        rw [List.mem_append, List.mem_singleton, or_comm]
        exact or_congr_right ⟨fun stored => ⟨stored, fresh other stored⟩, And.left⟩
      · intro target
        rw [List.mem_append, or_comm]
        exact or_congr_right ⟨fun stored => ⟨stored, unowned target stored⟩, And.left⟩
      · rw [List.map_append]
        refine List.Nodup.append sound.keys (List.nodup_singleton _) ?_
        intro key old new
        obtain ⟨other, stored, rfl⟩ := List.mem_map.mp old
        exact fresh other stored (by simpa [TombstoneRegistration.record] using new)
      · have kept : (ledger.targets.filter fun target =>
            target.identityHash ≠ registration.identityHash) = ledger.targets :=
          List.filter_eq_self.mpr fun target stored => by simpa using unowned target stored
        have nodup := filter_append_nodup registration now sound
        rwa [kept] at nodup

/-- **A registration keeps the tables sound.** -/
theorem TakesOver.sound (sound : ledger.Sound) (takes : TakesOver ledger next registration record now)
    (accepted : registration.refusal = none)
    (named : record.identityHash = registration.identityHash)
    (sequence : record.tombstoneSequence = registration.tombstoneSequence)
    (open_ : record.convergedAt = none) : next.Sound where
  keys := takes.keys
  targetKeys := takes.targetKeys
  current target stored := by
    rcases (takes.targets target).mp stored with new | ⟨old, elsewhere⟩
    · obtain ⟨targetId, -, rfl⟩ := mem_targetRows.mp new
      exact ⟨record, (takes.records record).mpr (Or.inl rfl), named, sequence⟩
    · obtain ⟨owner, member, same, current⟩ := sound.current target old
      exact ⟨owner, (takes.records owner).mpr (Or.inr ⟨member, same ▸ elsewhere⟩), same, current⟩
  awaited other stored := by
    rcases (takes.records other).mp stored with rfl | ⟨old, elsewhere⟩
    · obtain ⟨targetId, member⟩ := (targets_of_accepted accepted).1
      exact ⟨_, (takes.targets _).mpr (Or.inl (mem_targetRows.mpr ⟨targetId, member, rfl⟩)),
        named.symm⟩
    · obtain ⟨target, member, same⟩ := sound.awaited other old
      exact ⟨target, (takes.targets target).mpr (Or.inr ⟨member, same ▸ elsewhere⟩), same⟩
  identified target stored := by
    rcases (takes.targets target).mp stored with new | ⟨old, -⟩
    · obtain ⟨targetId, member, rfl⟩ := mem_targetRows.mp new
      exact (targets_of_accepted accepted).2 targetId member
    · exact sound.identified target old
  receipts target stored := by
    rcases (takes.targets target).mp stored with new | ⟨old, -⟩
    · obtain ⟨targetId, member, rfl⟩ := mem_targetRows.mp new
      exact Or.inl ⟨rfl, rfl, rfl⟩
    · exact sound.receipts target old
  converged other stored := by
    rcases (takes.records other).mp stored with rfl | ⟨old, elsewhere⟩
    · -- The new targets are all pending, and there is one.
      refine iff_of_false (not_not.mpr open_) fun settled => ?_
      obtain ⟨targetId, member⟩ := (targets_of_accepted accepted).1
      exact settled _ ((takes.targets _).mpr (Or.inl (mem_targetRows.mpr ⟨targetId, member, rfl⟩)))
        named.symm rfl
    · rw [sound.converged other old]
      constructor
      · intro settled target here same
        rcases (takes.targets target).mp here with new | ⟨before, -⟩
        · obtain ⟨targetId, -, rfl⟩ := mem_targetRows.mp new
          exact absurd same.symm elsewhere
        · exact settled target before same
      · intro settled target before same
        exact settled target ((takes.targets target).mpr (Or.inr ⟨before, same ▸ elsewhere⟩)) same

theorem registerTombstone_sound (sound : ledger.Sound)
    (registered : ledger.registerTombstone registration now = .ok (record, next)) : next.Sound := by
  obtain ⟨accepted, ⟨rfl, -⟩ | ⟨⟨current, -, -, rfl⟩ | ⟨-, rfl⟩, takes⟩⟩ :=
    registerTombstone_ok sound registered
  · exact sound
  · exact takes.sound sound accepted rfl rfl rfl
  · exact takes.sound sound accepted rfl rfl rfl

/-! ## Receipts -/

/-- **What an accepted receipt does.** It is stored on the target row it names, and
the ledger row of the identity is verified. -/
theorem recordTarget_ok {targetId status receipt : String} {tombstoneSequence checkpointSequence : ℕ}
    (recorded : ledger.recordTarget identityHash targetId tombstoneSequence checkpointSequence status
      receipt now = .ok next) :
    ∃ received, TargetStatus.ofReceipt status = some received ∧
      tombstoneSequence ≤ checkpointSequence ∧
      (∃ current, ledger.find identityHash = some current ∧
        current.tombstoneSequence = tombstoneSequence) ∧
      (∃ target ∈ ledger.targets, target.Matches identityHash targetId tombstoneSequence) ∧
      next = (ledger.receive identityHash targetId tombstoneSequence checkpointSequence received
        receipt now).verify identityHash now := by
  unfold recordTarget at recorded
  split at recorded
  · cases recorded
  · split at recorded
    · cases recorded
    next received known =>
      split at recorded
      · cases recorded
      next reached =>
        split at recorded
        · cases recorded
        · split at recorded
          · cases recorded
          next current found =>
            split at recorded
            · cases recorded
            next same =>
              split at recorded
              · cases recorded
              next one =>
                cases recorded
                refine ⟨received, known, not_lt.mp reached, ⟨current, found, not_not.mp same⟩, ?_,
                  rfl⟩
                have counted := not_not.mp one
                obtain ⟨target, member⟩ := List.exists_mem_of_length_pos
                  (l := ledger.targets.filter fun target =>
                    target.Matches identityHash targetId tombstoneSequence) (by omega)
                have matched := List.mem_filter.mp member
                exact ⟨target, matched.1, by simpa using matched.2⟩

theorem ofReceipt_ne_pending {status : String} {received : TargetStatus}
    (known : TargetStatus.ofReceipt status = some received) : received ≠ .pending := by
  unfold TargetStatus.ofReceipt at known
  split_ifs at known with applied absent
  · cases known
    decide
  · cases known
    decide

section Receive

variable {targetId receipt : String} {tombstoneSequence checkpointSequence : ℕ}
  {received : TargetStatus}

theorem mem_receive {target : TargetRow} :
    target ∈ (ledger.receive identityHash targetId tombstoneSequence checkpointSequence received
        receipt now).targets ↔
      ∃ before ∈ ledger.targets, target =
        if before.Matches identityHash targetId tombstoneSequence then
          before.received received checkpointSequence receipt now
        else before := by
  simp [receive, eq_comm]

variable (now identityHash targetId receipt tombstoneSequence checkpointSequence received) in
/-- A receipt leaves the key and the tombstone of every target row alone. -/
theorem receive_same (before : TargetRow) :
    let target := if before.Matches identityHash targetId tombstoneSequence then
      before.received received checkpointSequence receipt now else before
    target.identityHash = before.identityHash ∧ target.targetId = before.targetId ∧
      target.tombstoneSequence = before.tombstoneSequence := by
  simp only
  split_ifs
  · exact ⟨rfl, rfl, rfl⟩
  · exact ⟨rfl, rfl, rfl⟩

theorem targetKeys_receive :
    (ledger.receive identityHash targetId tombstoneSequence checkpointSequence received receipt
        now).targets.map (fun target => (target.identityHash, target.targetId)) =
      ledger.targets.map fun target => (target.identityHash, target.targetId) := by
  unfold receive
  rw [List.map_map]
  refine List.map_congr_left fun before _ => ?_
  have same := receive_same now identityHash targetId receipt tombstoneSequence checkpointSequence
    received before
  exact Prod.ext same.1 same.2.1

end Receive

/-- A receipt keeps the rows linked. -/
theorem Linked.receive {targetId receipt : String} {tombstoneSequence checkpointSequence : ℕ}
    {received : TargetStatus} (linked : ledger.Linked) (settles : received ≠ .pending)
    (reached : tombstoneSequence ≤ checkpointSequence) :
    (ledger.receive identityHash targetId tombstoneSequence checkpointSequence received receipt
      now).Linked where
  keys := linked.keys
  targetKeys := by
    rw [targetKeys_receive]
    exact linked.targetKeys
  current target stored := by
    obtain ⟨before, old, rfl⟩ := mem_receive.mp stored
    obtain ⟨owner, member, same, current⟩ := linked.current before old
    have kept := receive_same now identityHash targetId receipt tombstoneSequence
      checkpointSequence received before
    exact ⟨owner, member, same.trans kept.1.symm, current.trans kept.2.2.symm⟩
  awaited record stored := by
    obtain ⟨target, member, same⟩ := linked.awaited record stored
    have kept := receive_same now identityHash targetId receipt tombstoneSequence
      checkpointSequence received target
    exact ⟨_, mem_receive.mpr ⟨target, member, rfl⟩, kept.1.trans same⟩
  identified target stored := by
    obtain ⟨before, old, rfl⟩ := mem_receive.mp stored
    rw [(receive_same now identityHash targetId receipt tombstoneSequence checkpointSequence
      received before).2.1]
    exact linked.identified before old
  receipts target stored := by
    obtain ⟨before, old, rfl⟩ := mem_receive.mp stored
    split_ifs with matched
    · refine Or.inr ⟨settles, by simp [TargetRow.received], checkpointSequence, rfl, ?_⟩
      exact matched.2.2 ▸ reached
    · exact linked.receipts before old

/-- A receipt settles targets of its own identity only. -/
theorem settled_receive_iff {targetId receipt : String} {tombstoneSequence checkpointSequence : ℕ}
    {received : TargetStatus} {other : String} (settles : received ≠ .pending)
    (elsewhere : other ≠ identityHash) :
    (ledger.receive identityHash targetId tombstoneSequence checkpointSequence received receipt
      now).Settled other ↔ ledger.Settled other := by
  constructor
  · intro done target member same
    have kept := receive_same now identityHash targetId receipt tombstoneSequence
      checkpointSequence received target
    have after := done _ (mem_receive.mpr ⟨target, member, rfl⟩) (kept.1.trans same)
    rwa [if_neg fun matched => elsewhere (same ▸ matched.1)] at after
  · intro done target member same
    obtain ⟨before, old, rfl⟩ := mem_receive.mp member
    split_ifs with matched
    · exact settles
    · rw [if_neg matched] at same
      exact done before old same

/-- The pending rows of an identity are gone when it is settled. -/
theorem pendingRows_eq_nil : ledger.pendingRows identityHash = [] ↔ ledger.Settled identityHash := by
  unfold pendingRows Settled
  simp

/-! ## Updates of one ledger row -/

/-- An update that leaves the key and the tombstone alone. -/
def KeepsTombstone (update : DeletionRecord → DeletionRecord) : Prop :=
  ∀ record, (update record).identityHash = record.identityHash ∧
    (update record).tombstoneSequence = record.tombstoneSequence

theorem KeepsTombstone.ite {update : DeletionRecord → DeletionRecord} (keeps : KeepsTombstone update)
    (identityHash : String) (before : DeletionRecord) :
    (if before.identityHash = identityHash then update before else before).identityHash =
        before.identityHash ∧
      (if before.identityHash = identityHash then update before else before).tombstoneSequence =
        before.tombstoneSequence := by
  split_ifs
  · exact keeps before
  · exact ⟨rfl, rfl⟩

/-- **One ledger row is updated.** The tables are sound when its mark is right. -/
theorem Linked.updateRecord {update : DeletionRecord → DeletionRecord} (linked : ledger.Linked)
    (keeps : KeepsTombstone update)
    (elsewhere : ∀ record ∈ ledger.records, record.identityHash ≠ identityHash →
      (record.convergedAt ≠ none ↔ ledger.Settled record.identityHash))
    (here : ∀ record ∈ ledger.records, record.identityHash = identityHash →
      ((update record).convergedAt ≠ none ↔ ledger.Settled identityHash)) :
    (ledger.updateRecord identityHash update).Sound where
  keys := by
    rw [keys_updateRecord fun record _ => Or.inl (keeps record).1]
    exact linked.keys
  targetKeys := linked.targetKeys
  current target stored := by
    obtain ⟨owner, member, same, current⟩ := linked.current target stored
    have kept := keeps.ite identityHash owner
    exact ⟨_, mem_updateRecord.mpr ⟨owner, member, rfl⟩, kept.1.trans same, kept.2.trans current⟩
  awaited record stored := by
    obtain ⟨before, old, rfl⟩ := mem_updateRecord.mp stored
    obtain ⟨target, member, same⟩ := linked.awaited before old
    exact ⟨target, member, same.trans (keeps.ite identityHash before).1.symm⟩
  identified := linked.identified
  receipts := linked.receipts
  converged record stored := by
    obtain ⟨before, old, rfl⟩ := mem_updateRecord.mp stored
    rw [(keeps.ite identityHash before).1]
    by_cases named : before.identityHash = identityHash
    · rw [if_pos named, named]
      exact here before old named
    · rw [if_neg named]
      exact elsewhere before old named

/-- **A receipt keeps the tables sound.** -/
theorem recordTarget_sound {targetId status receipt : String}
    {tombstoneSequence checkpointSequence : ℕ} (sound : ledger.Sound)
    (recorded : ledger.recordTarget identityHash targetId tombstoneSequence checkpointSequence status
      receipt now = .ok next) : next.Sound := by
  obtain ⟨received, known, reached, -, -, rfl⟩ := recordTarget_ok recorded
  have settles := ofReceipt_ne_pending known
  refine (sound.toLinked.receive settles reached).updateRecord (fun record => ⟨rfl, rfl⟩) ?_ ?_
  · intro record member elsewhere
    rw [settled_receive_iff settles elsewhere]
    exact sound.converged record member
  · intro record member named
    rw [← pendingRows_eq_nil]
    simp only
    split_ifs with none
    · exact iff_of_true (by simp) none
    · exact iff_of_false (by simp) none

/-! ## Legal holds -/

theorem setLegalHold_ok {enabled : Bool} {reference : String}
    (held : ledger.setLegalHold identityHash enabled reference now = .ok next) :
    next = ledger.updateRecord identityHash fun record =>
      { record with
        legalHold := enabled
        legalHoldReference := some reference
        updatedAt := now } := by
  unfold setLegalHold at held
  split_ifs at held
  cases held
  rfl

/-- **A legal hold keeps the tables sound.** -/
theorem setLegalHold_sound {enabled : Bool} {reference : String} (sound : ledger.Sound)
    (held : ledger.setLegalHold identityHash enabled reference now = .ok next) : next.Sound := by
  obtain rfl := setLegalHold_ok held
  refine sound.toLinked.updateRecord (fun record => ⟨rfl, rfl⟩) ?_ ?_
  · exact fun record member _ => sound.converged record member
  · rintro record member rfl
    exact sound.converged record member

end DeletionLedger

end ImposbroSearch.Deletion
