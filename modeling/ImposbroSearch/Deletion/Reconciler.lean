import ImposbroSearch.Deletion.Tombstones

/-!
# The restore gate

After a restore, traffic stays closed until every suppression of the ledger has been
applied again. The reconciler asks for one page of the ledger, from its beginning,
and has the provider suppress the targets of the identities on it. It never asks for
a second page: what lies beyond the first one is not looked at.
-/

namespace ImposbroSearch.Deletion

open ImposbroSearch.Publishing

structure SuppressionReceipt where
  identityHash : String
  targetId : String
  tombstoneSequence : ℕ
  checkpointSequence : ℕ
  status : String
  receiptId : String
  deriving DecidableEq, Repr

/-- A provider adapter: its answer to a suppression, after those it has confirmed.
It may raise. -/
abbrev DeletionTarget :=
  List (DeletionRecord × String) → DeletionRecord → String → Option SuppressionReceipt

inductive ReconcileError where
  | provider
  | ledger (error : LedgerError)
  deriving DecidableEq, Repr

/-- The ledger, and the suppressions confirmed and recorded. Their number is what the
reconciler returns. -/
structure Reconciliation where
  ledger : DeletionLedger
  reconciled : List (DeletionRecord × String) := []

namespace Reconciliation

variable (target : DeletionTarget) (now : ℕ)

/-- One round of the inner loop. What an exception leaves behind is the ledger. -/
def suppress (record : DeletionRecord) (state : Reconciliation) (targetId : String) :
    Except (ReconcileError × DeletionLedger) Reconciliation :=
  match target state.reconciled record targetId with
  | none => .error (.provider, state.ledger)
  | some receipt =>
    if receipt.identityHash ≠ record.identityHash ∨ receipt.targetId ≠ targetId ∨
        receipt.tombstoneSequence ≠ record.tombstoneSequence then
      .error (.ledger (.deletionLedger
        "Suppression provider acknowledged a different deletion boundary"), state.ledger)
    else
      match state.ledger.recordTarget record.identityHash targetId record.tombstoneSequence
          receipt.checkpointSequence receipt.status receipt.receiptId now with
      | .error error => .error (.ledger error, state.ledger)
      | .ok ledger => .ok { ledger, reconciled := state.reconciled ++ [(record, targetId)] }

/-- The inner loop. -/
def suppressAll (record : DeletionRecord) (state : Reconciliation) :
    List String → Except (ReconcileError × DeletionLedger) Reconciliation
  | [] => .ok state
  | targetId :: targetIds =>
    match state.suppress target now record targetId with
    | .error failure => .error failure
    | .ok next => suppressAll record next targetIds

/-- The outer loop, over the targets that `select` picks for each identity. -/
def reconcile (select : DeletionLedger → String → List String) (state : Reconciliation) :
    List DeletionRecord → Except (ReconcileError × DeletionLedger) Reconciliation
  | [] => .ok state
  | record :: records =>
    match state.suppressAll target now record (select state.ledger record.identityHash) with
    | .error failure => .error failure
    | .ok next => reconcile select next records

end Reconciliation

namespace DeletionLedger

variable (ledger : DeletionLedger) (target : DeletionTarget) (limit : ℤ) (now : ℕ)

/-- A reconciliation of the first page of the ledger. -/
def reconcilePage (select : DeletionLedger → String → List String) :
    Except (ReconcileError × DeletionLedger) Reconciliation :=
  match ledger.listRestoreSuppressions "" limit with
  | .error error => .error (.ledger error, ledger)
  | .ok records => Reconciliation.reconcile target now select { ledger } records

/-- `reconcile_once` -/
def reconcileOnce : Except (ReconcileError × DeletionLedger) Reconciliation :=
  ledger.reconcilePage target limit now pendingTargets

/-- `reconcile_restore` -/
def reconcileRestore : Except (ReconcileError × DeletionLedger) Reconciliation :=
  ledger.reconcilePage target limit now targetIds

/-- `reconcile_once` returns zero only if no target of the ledger is pending. -/
def OnceGate : Prop :=
  ∀ target now state, ledger.reconcileOnce target limit now = .ok state →
    state.reconciled.length = 0 → ∀ row ∈ state.ledger.targets, row.status ≠ .pending

/-- When `reconcile_restore` returns, every target of every identity of the ledger has
been suppressed. -/
def RestoreGate : Prop :=
  ∀ target now state, ledger.reconcileRestore target limit now = .ok state →
    ∀ row ∈ ledger.targets, ∃ entry ∈ state.reconciled,
      entry.1.identityHash = row.identityHash ∧ entry.2 = row.targetId

/-- The ledger in the order of its hashes. -/
def sortedRecords : List DeletionRecord :=
  ledger.records.insertionSort fun first second => first.identityHash ≤ second.identityHash

variable {ledger limit} {next : DeletionLedger} {record : DeletionRecord}

theorem mem_sortedRecords : record ∈ ledger.sortedRecords ↔ record ∈ ledger.records :=
  (List.perm_insertionSort _ _).mem_iff

theorem listRestoreSuppressions_ok {records : List DeletionRecord} :
    ledger.listRestoreSuppressions "" limit = .ok records ↔
      (1 ≤ limit ∧ limit ≤ 5000) ∧ records = ledger.sortedRecords.take limit.toNat := by
  unfold listRestoreSuppressions sortedRecords
  split_ifs with refused
  · simp only [false_iff, not_and]
    intro range
    omega
  · simp only [true_or, decide_true, List.filter_true, Except.ok.injEq]
    constructor
    · rintro rfl
      exact ⟨by omega, rfl⟩
    · rintro ⟨-, rfl⟩
      rfl

/-! ## What a receipt leaves alone -/

/-- The same identities with the same tombstones, awaited from the same targets. -/
structure SameBoundary (before after : DeletionLedger) : Prop where
  records : after.records.map (fun record => (record.identityHash, record.tombstoneSequence)) =
    before.records.map fun record => (record.identityHash, record.tombstoneSequence)
  targets : after.targets.map (fun row => (row.identityHash, row.targetId, row.tombstoneSequence)) =
    before.targets.map fun row => (row.identityHash, row.targetId, row.tombstoneSequence)

theorem SameBoundary.refl (ledger : DeletionLedger) : SameBoundary ledger ledger := ⟨rfl, rfl⟩

theorem SameBoundary.trans {first second third : DeletionLedger}
    (left : SameBoundary first second) (right : SameBoundary second third) :
    SameBoundary first third :=
  ⟨right.records.trans left.records, right.targets.trans left.targets⟩

theorem recordTarget_same {identityHash targetId status receipt : String}
    {tombstoneSequence checkpointSequence : ℕ}
    (recorded : ledger.recordTarget identityHash targetId tombstoneSequence checkpointSequence status
      receipt now = .ok next) : SameBoundary ledger next := by
  obtain ⟨received, -, -, -, -, rfl⟩ := recordTarget_ok recorded
  constructor
  · show (List.map _ (List.map _ _)) = _
    rw [List.map_map]
    refine List.map_congr_left fun record _ => ?_
    simp only [Function.comp_apply]
    split
    · rfl
    · rfl
  · show (List.map _ (List.map _ _)) = _
    rw [List.map_map]
    refine List.map_congr_left fun before _ => ?_
    have same := receive_same now identityHash targetId receipt tombstoneSequence
      checkpointSequence received before
    exact Prod.ext same.1 (Prod.ext same.2.1 same.2.2)

theorem SameBoundary.targetIds (same : SameBoundary ledger next) (identityHash : String) :
    next.targetIds identityHash = ledger.targetIds identityHash := by
  have read : ∀ given : DeletionLedger, given.targetIds identityHash =
      (((given.targets.map fun row => (row.identityHash, row.targetId, row.tombstoneSequence)).filter
        fun key => key.1 = identityHash).map fun key => key.2.1).insertionSort (· ≤ ·) := by
    intro given
    unfold DeletionLedger.targetIds
    rw [List.filter_map, List.map_map]
    rfl
  rw [read next, read ledger, same.targets]

theorem mem_targetIds {identityHash targetId : String} :
    targetId ∈ ledger.targetIds identityHash ↔
      ∃ row ∈ ledger.targets, row.identityHash = identityHash ∧ row.targetId = targetId := by
  unfold DeletionLedger.targetIds
  rw [List.mem_insertionSort]
  simp [and_assoc]

theorem mem_pendingTargets {identityHash targetId : String} :
    targetId ∈ ledger.pendingTargets identityHash ↔
      ∃ row ∈ ledger.targets, (row.identityHash = identityHash ∧ row.status = .pending) ∧
        row.targetId = targetId := by
  unfold pendingTargets pendingRows
  rw [List.mem_insertionSort]
  simp [and_assoc]

theorem pendingTargets_eq_nil {identityHash : String} :
    ledger.pendingTargets identityHash = [] ↔ ledger.Settled identityHash := by
  rw [← pendingRows_eq_nil, pendingTargets]
  constructor
  · intro none
    have length := congrArg List.length none
    rw [List.length_insertionSort, List.length_map] at length
    exact List.length_eq_zero_iff.mp length
  · intro none
    rw [none]
    rfl

end DeletionLedger

/-! ## What the loops do -/

namespace Reconciliation

open DeletionLedger

variable {target : DeletionTarget} {now : ℕ} {record : DeletionRecord} {state next : Reconciliation}
  {select : DeletionLedger → String → List String}

theorem suppress_ok {targetId : String}
    (done : state.suppress target now record targetId = .ok next) :
    SameBoundary state.ledger next.ledger ∧
      next.reconciled = state.reconciled ++ [(record, targetId)] := by
  unfold suppress at done
  split at done
  · cases done
  · split at done
    · cases done
    · split at done
      · cases done
      next ledger recorded =>
        cases done
        exact ⟨recordTarget_same now recorded, rfl⟩

/-- **The inner loop** confirms each of its targets. -/
theorem suppressAll_ok {targetIds : List String}
    (done : state.suppressAll target now record targetIds = .ok next) :
    SameBoundary state.ledger next.ledger ∧
      next.reconciled = state.reconciled ++ targetIds.map fun targetId => (record, targetId) := by
  induction targetIds generalizing state with
  | nil =>
      cases done
      exact ⟨.refl _, by simp⟩
  | cons targetId targetIds ih =>
      unfold suppressAll at done
      split at done
      · cases done
      next middle first =>
        obtain ⟨same, confirmed⟩ := suppress_ok first
        obtain ⟨later, rest⟩ := ih done
        exact ⟨same.trans later, by rw [rest, confirmed]; simp⟩

/-- **The outer loop** confirms nothing but targets it selected of identities it was
given, and keeps what it had. -/
theorem reconcile_ok {records : List DeletionRecord}
    (done : state.reconcile target now select records = .ok next) :
    SameBoundary state.ledger next.ledger ∧ ∃ added, next.reconciled = state.reconciled ++ added ∧
      ∀ entry ∈ added, entry.1 ∈ records := by
  induction records generalizing state with
  | nil =>
      cases done
      exact ⟨.refl _, [], by simp, by simp⟩
  | cons record records ih =>
      unfold reconcile at done
      split at done
      · cases done
      next middle first =>
        obtain ⟨same, confirmed⟩ := suppressAll_ok first
        obtain ⟨later, added, rest, known⟩ := ih done
        refine ⟨same.trans later, _, by rw [rest, confirmed, List.append_assoc], ?_⟩
        intro entry member
        rcases List.mem_append.mp member with here | there
        · obtain ⟨targetId, -, rfl⟩ := List.mem_map.mp here
          exact List.mem_cons_self
        · exact List.mem_cons_of_mem _ (known entry there)

/-- A run over targets that receipts do not change confirms all of them. -/
theorem reconcile_targetIds {records : List DeletionRecord}
    (done : state.reconcile target now DeletionLedger.targetIds records = .ok next)
    (member : record ∈ records) {targetId : String}
    (awaited : targetId ∈ state.ledger.targetIds record.identityHash) :
    (record, targetId) ∈ next.reconciled := by
  induction records generalizing state with
  | nil => cases member
  | cons head records ih =>
      unfold reconcile at done
      split at done
      · cases done
      next middle first =>
        obtain ⟨same, confirmed⟩ := suppressAll_ok first
        rcases List.mem_cons.mp member with rfl | later
        · obtain ⟨-, added, rest, -⟩ := reconcile_ok done
          rw [rest, confirmed]
          refine List.mem_append_left _ (List.mem_append_right _ ?_)
          exact List.mem_map_of_mem awaited
        · exact ih done later (by rwa [same.targetIds])

/-- A run over pending targets that confirms none has found none. -/
theorem reconcile_none {records : List DeletionRecord}
    (done : state.reconcile target now DeletionLedger.pendingTargets records = .ok next)
    (none : next.reconciled.length = 0) :
    next.ledger = state.ledger ∧ ∀ record ∈ records, state.ledger.Settled record.identityHash := by
  induction records generalizing state with
  | nil =>
      cases done
      exact ⟨rfl, by simp⟩
  | cons head records ih =>
      unfold reconcile at done
      split at done
      · cases done
      next middle first =>
        have confirmed := (suppressAll_ok first).2
        obtain ⟨-, added, rest, -⟩ := reconcile_ok done
        rw [rest, confirmed] at none
        simp only [List.length_append, List.length_map, Nat.add_eq_zero_iff,
          List.length_eq_zero_iff] at none
        have idle := none.1.2
        rw [idle] at first
        cases first
        obtain ⟨same, settled⟩ := ih done
        refine ⟨same, fun record member => ?_⟩
        rcases List.mem_cons.mp member with rfl | later
        · exact pendingTargets_eq_nil.mp idle
        · exact settled record later

/-- Over settled identities the loop does nothing. -/
theorem reconcile_settled (target : DeletionTarget) (now : ℕ) {records : List DeletionRecord}
    (settled : ∀ record ∈ records, state.ledger.Settled record.identityHash) :
    state.reconcile target now DeletionLedger.pendingTargets records = .ok state := by
  induction records with
  | nil => rfl
  | cons head records ih =>
      unfold reconcile
      rw [pendingTargets_eq_nil.mpr (settled head List.mem_cons_self)]
      exact ih fun record member => settled record (List.mem_cons_of_mem _ member)

/-! ## A provider that confirms everything -/

/-- It confirms every suppression at the tombstone. -/
def confirming : DeletionTarget := fun _ record targetId => some
  { identityHash := record.identityHash
    targetId
    tombstoneSequence := record.tombstoneSequence
    checkpointSequence := record.tombstoneSequence
    status := "applied"
    receiptId := "receipt" }

/-- The identity is in the ledger with the tombstone the record had when it was read. -/
def Current (ledger : DeletionLedger) (record : DeletionRecord) : Prop :=
  ∃ stored ∈ ledger.records, stored.identityHash = record.identityHash ∧
    stored.tombstoneSequence = record.tombstoneSequence

theorem Current.after {before after : DeletionLedger} (same : SameBoundary before after)
    (current : Current before record) : Current after record := by
  obtain ⟨stored, member, hash, sequence⟩ := current
  have listed := List.mem_map_of_mem
    (f := fun record : DeletionRecord => (record.identityHash, record.tombstoneSequence)) member
  rw [← same.records] at listed
  obtain ⟨other, otherMember, key⟩ := List.mem_map.mp listed
  obtain ⟨otherHash, otherSequence⟩ := Prod.mk.inj key
  exact ⟨other, otherMember, otherHash.trans hash, otherSequence.trans sequence⟩

/-- The receipt of a confirmation is accepted for every awaited target. -/
theorem recordTarget_confirms {ledger : DeletionLedger} (sound : ledger.Sound)
    (current : Current ledger record) {targetId : String}
    (awaited : targetId ∈ ledger.targetIds record.identityHash) (now : ℕ) :
    ∃ next, ledger.recordTarget record.identityHash targetId record.tombstoneSequence
      record.tombstoneSequence "applied" "receipt" now = .ok next := by
  obtain ⟨stored, member, hash, sequence⟩ := current
  rw [← hash] at awaited ⊢
  rw [← sequence]
  obtain ⟨row, rowStored, same, rfl⟩ := mem_targetIds.mp awaited
  have unique : ∀ other ∈ ledger.targets,
      other.Matches stored.identityHash row.targetId stored.tombstoneSequence ↔ other = row := by
    intro other otherStored
    constructor
    · rintro ⟨otherHash, name, -⟩
      exact List.inj_on_of_nodup_map sound.targetKeys otherStored rowStored
        (Prod.ext (otherHash.trans same.symm) name)
    · rintro rfl
      obtain ⟨owner, ownerMember, ownerHash, reached⟩ := sound.current other rowStored
      obtain rfl := sound.eq_of_hash ownerMember member (ownerHash.trans same)
      exact ⟨same, rfl, reached.symm⟩
  have one : ledger.targets.filter (fun target =>
      target.Matches stored.identityHash row.targetId stored.tombstoneSequence) = [row] := by
    have nodup : ledger.targets.Nodup := sound.targetKeys.of_map
    rw [List.filter_congr (q := fun other => other == row) fun other otherStored =>
      (decide_eq_decide.mpr (unique other otherStored)).trans (beq_eq_decide other row).symm]
    rw [List.filter_beq, nodup.count, if_pos rowStored]
    rfl
  refine ⟨(ledger.receive stored.identityHash row.targetId stored.tombstoneSequence
    stored.tombstoneSequence .applied "receipt" now).verify stored.identityHash now, ?_⟩
  unfold DeletionLedger.recordTarget
  rw [if_neg (not_not.mpr (sound.identified row rowStored)), sound.find member, one]
  simp [TargetStatus.ofReceipt, Bounded]
  decide

/-- With such a provider a round goes through. -/
theorem suppress_confirms (sound : state.ledger.Sound) (current : Current state.ledger record)
    {targetId : String} (awaited : targetId ∈ state.ledger.targetIds record.identityHash)
    (now : ℕ) :
    ∃ next, state.suppress confirming now record targetId = .ok next ∧ next.ledger.Sound := by
  obtain ⟨ledger, recorded⟩ := recordTarget_confirms sound current awaited now
  refine ⟨{ ledger, reconciled := state.reconciled ++ [(record, targetId)] }, ?_,
    recordTarget_sound sound recorded⟩
  simp [suppress, confirming, recorded]

theorem suppressAll_confirms (now : ℕ) {targetIds : List String} (sound : state.ledger.Sound)
    (current : Current state.ledger record)
    (awaited : ∀ targetId ∈ targetIds, targetId ∈ state.ledger.targetIds record.identityHash) :
    ∃ next, state.suppressAll confirming now record targetIds = .ok next ∧ next.ledger.Sound := by
  induction targetIds generalizing state with
  | nil => exact ⟨state, rfl, sound⟩
  | cons targetId targetIds ih =>
      obtain ⟨middle, first, kept⟩ :=
        suppress_confirms sound current (awaited targetId List.mem_cons_self) now
      have same := (suppress_ok first).1
      obtain ⟨next, rest, final⟩ := ih kept (current.after same) fun other member => by
        rw [same.targetIds]
        exact awaited other (List.mem_cons_of_mem _ member)
      exact ⟨next, by rw [suppressAll, first]; exact rest, final⟩

/-- **With such a provider the whole run goes through.** -/
theorem reconcile_confirms (now : ℕ) {records : List DeletionRecord} (sound : state.ledger.Sound)
    (current : ∀ record ∈ records, Current state.ledger record) :
    ∃ next, state.reconcile confirming now DeletionLedger.targetIds records = .ok next := by
  induction records generalizing state with
  | nil => exact ⟨state, rfl⟩
  | cons head records ih =>
      obtain ⟨middle, first, kept⟩ := suppressAll_confirms now sound
        (current head List.mem_cons_self) fun targetId member => member
      have same := (suppressAll_ok first).1
      obtain ⟨next, rest⟩ := ih kept fun record member =>
        (current record (List.mem_cons_of_mem _ member)).after same
      exact ⟨next, by rw [reconcile, first]; exact rest⟩

end Reconciliation

/-! ## When the gates hold -/

namespace DeletionLedger

open Reconciliation

variable {ledger : DeletionLedger} {limit : ℤ}

theorem reconcilePage_ok {target : DeletionTarget} {now : ℕ}
    {select : DeletionLedger → String → List String} {state : Reconciliation} :
    ledger.reconcilePage target limit now select = .ok state ↔
      (1 ≤ limit ∧ limit ≤ 5000) ∧ Reconciliation.reconcile target now select { ledger }
        (ledger.sortedRecords.take limit.toNat) = .ok state := by
  unfold reconcilePage
  cases listed : ledger.listRestoreSuppressions "" limit with
  | error error =>
      simp only [reduceCtorEq, false_iff, not_and]
      intro range
      rw [listRestoreSuppressions_ok.mpr ⟨range, rfl⟩] at listed
      cases listed
  | ok records =>
      obtain ⟨range, rfl⟩ := listRestoreSuppressions_ok.mp listed
      simp [range]

/-- **The first gate.** It looks at the first page only, so it holds when nothing is
pending beyond a settled page. -/
theorem onceGate_iff (sound : ledger.Sound) (range : 1 ≤ limit ∧ limit ≤ 5000) :
    ledger.OnceGate limit ↔
      ((∀ record ∈ ledger.sortedRecords.take limit.toNat, ledger.Settled record.identityHash) →
        ∀ record ∈ ledger.records, ledger.Settled record.identityHash) := by
  constructor
  · intro gate settled record member row stored _
    have idle : Reconciliation.reconcile confirming 0 DeletionLedger.pendingTargets { ledger }
        (ledger.sortedRecords.take limit.toNat) = .ok { ledger } :=
      reconcile_settled confirming 0 settled
    exact gate confirming 0 _ (reconcilePage_ok.mpr ⟨range, idle⟩) rfl row stored
  · intro beyond target now state done none row stored
    obtain ⟨same, settled⟩ := reconcile_none (reconcilePage_ok.mp done).2 none
    rw [same] at stored
    obtain ⟨owner, member, named, -⟩ := sound.current row stored
    exact beyond settled owner member row stored named.symm

/-- **The second gate.** It needs the whole ledger on its one page. -/
theorem restoreGate_iff (sound : ledger.Sound) (range : 1 ≤ limit ∧ limit ≤ 5000) :
    ledger.RestoreGate limit ↔ (ledger.records.length : ℤ) ≤ limit := by
  have length : ledger.sortedRecords.length = ledger.records.length :=
    List.length_insertionSort _ _
  constructor
  · intro gate
    by_contra larger
    have current : ∀ record ∈ ledger.sortedRecords.take limit.toNat, Current ledger record :=
      fun record member => ⟨record, mem_sortedRecords.mp (List.mem_of_mem_take member), rfl, rfl⟩
    obtain ⟨state, done⟩ : ∃ next, Reconciliation.reconcile confirming 0 DeletionLedger.targetIds
        { ledger } (ledger.sortedRecords.take limit.toNat) = .ok next :=
      reconcile_confirms 0 sound current
    have split := List.take_append_drop limit.toNat ledger.sortedRecords
    obtain ⟨missed, member⟩ := List.exists_mem_of_length_pos
      (l := ledger.sortedRecords.drop limit.toNat) (by rw [List.length_drop]; omega)
    have missedStored := mem_sortedRecords.mp (List.mem_of_mem_drop member)
    obtain ⟨row, rowStored, named⟩ := sound.awaited missed missedStored
    obtain ⟨entry, reconciled, hash, -⟩ :=
      gate confirming 0 state (reconcilePage_ok.mpr ⟨range, done⟩) row rowStored
    obtain ⟨-, added, rest, known⟩ := reconcile_ok done
    rw [rest, List.nil_append] at reconciled
    have seen := known entry reconciled
    obtain same := sound.eq_of_hash (mem_sortedRecords.mp (List.mem_of_mem_take seen)) missedStored
      (hash.trans named)
    -- The missed record is not on the page.
    have nodup : ledger.sortedRecords.Nodup :=
      (List.perm_insertionSort _ _).nodup_iff.mpr sound.keys.of_map
    rw [← split] at nodup
    exact List.disjoint_of_nodup_append nodup seen (same ▸ member)
  · intro fits target now state done row stored
    have whole : ledger.sortedRecords.take limit.toNat = ledger.sortedRecords :=
      List.take_of_length_le (by omega)
    have reconciled := (reconcilePage_ok.mp done).2
    rw [whole] at reconciled
    obtain ⟨owner, member, named, -⟩ := sound.current row stored
    exact ⟨(owner, row.targetId), reconcile_targetIds reconciled (mem_sortedRecords.mpr member)
      (mem_targetIds.mpr ⟨row, stored, named.symm, rfl⟩), named, rfl⟩

/-- **Both gates.** A refused limit opens neither of them. -/
theorem gates_iff (sound : ledger.Sound) (limit : ℤ) :
    (ledger.OnceGate limit ↔ ¬(1 ≤ limit ∧ limit ≤ 5000) ∨
      ((∀ record ∈ ledger.sortedRecords.take limit.toNat, ledger.Settled record.identityHash) →
        ∀ record ∈ ledger.records, ledger.Settled record.identityHash)) ∧
    (ledger.RestoreGate limit ↔
      ¬(1 ≤ limit ∧ limit ≤ 5000) ∨ (ledger.records.length : ℤ) ≤ limit) := by
  by_cases range : 1 ≤ limit ∧ limit ≤ 5000
  · constructor
    · rw [onceGate_iff sound range, or_iff_right (not_not.mpr range)]
    · rw [restoreGate_iff sound range, or_iff_right (not_not.mpr range)]
  · constructor
    · refine iff_of_true (fun target now state done => ?_) (Or.inl range)
      exact absurd (reconcilePage_ok.mp done).1 range
    · refine iff_of_true (fun target now state done => ?_) (Or.inl range)
      exact absurd (reconcilePage_ok.mp done).1 range

/-! ## A ledger of two pages -/

/-- The tombstone of a document, awaited from one cluster. -/
def tombstoneOf (identityHash : String) : TombstoneRegistration where
  identityHash
  tenantId := "acme"
  collection := "docs"
  documentId := identityHash
  tombstoneSequence := 1
  documentVersion := 1
  eventId := identityHash
  eventDigest := identityHash
  routingRevision := 1
  targetIds := ["blue"]
  requestedAt := 0

/-- The row of its target, without a receipt. -/
def awaiting (identityHash : String) : TargetRow where
  identityHash
  targetId := "blue"
  tombstoneSequence := 1
  updatedAt := 0

/-- Two deleted documents, of which the first is confirmed. -/
def twoPages : DeletionLedger where
  records := [{ (tombstoneOf "a").record 0 with convergedAt := some 1 }, (tombstoneOf "b").record 0]
  targets := [(awaiting "a").received .applied 1 "receipt" 1, awaiting "b"]

theorem twoPages_sound : twoPages.Sound where
  keys := by decide
  targetKeys := by decide
  current := by
    simp [twoPages, tombstoneOf, TombstoneRegistration.record, awaiting, TargetRow.received]
  awaited := by
    simp [twoPages, tombstoneOf, TombstoneRegistration.record, awaiting, TargetRow.received]
  identified := by
    simp only [twoPages, List.mem_cons, List.not_mem_nil, or_false, forall_eq_or_imp, forall_eq]
    decide
  receipts := by
    simp [twoPages, awaiting, TargetRow.received]
  converged := by
    simp [twoPages, Settled, tombstoneOf, TombstoneRegistration.record, awaiting,
      TargetRow.received]

theorem twoPages_firstPage :
    twoPages.sortedRecords.take 1 = [{ (tombstoneOf "a").record 0 with convergedAt := some 1 }] := by
  decide

/-- **Pages of one identity.** The first gate returns zero while the second document
is pending, and the second one returns without having suppressed it. -/
theorem gates_miss_second_page : ¬twoPages.OnceGate 1 ∧ ¬twoPages.RestoreGate 1 := by
  constructor
  · rw [onceGate_iff twoPages_sound (by decide)]
    intro beyond
    have settled := beyond (by
      rw [show (1 : ℤ).toNat = 1 from rfl, twoPages_firstPage]
      simp [Settled, twoPages, tombstoneOf, TombstoneRegistration.record, awaiting,
        TargetRow.received]) _ (List.mem_cons_of_mem _ List.mem_cons_self) (awaiting "b")
    exact settled (List.mem_cons_of_mem _ List.mem_cons_self) rfl rfl
  · rw [restoreGate_iff twoPages_sound (by decide)]
    decide

/-- On pages of two identities both gates hold. -/
theorem gates_iff_twoPages : twoPages.RestoreGate 2 :=
  (gates_iff twoPages_sound 2).2.mpr (Or.inr (by decide))

end DeletionLedger

end ImposbroSearch.Deletion
