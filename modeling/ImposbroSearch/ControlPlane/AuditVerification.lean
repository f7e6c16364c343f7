import ImposbroSearch.ControlPlane.AuditChain
import ImposbroSearch.ControlPlane.StateRecords

/-!
# Verifying the audit chain

The verifier reads the rows in the order of their numbers, builds the material of each
row anew, and follows the links up to the head. It accepts a table exactly when the
entries that the rows stand for are a chain that ends in the head. What the writers meant
to record is such a chain too, after every run: so an accepted table stands, entry by
entry, for what was recorded, as far as no two of the hashed texts collide.

The rows and the head are two statements, and each sees what is committed by then.
-/

namespace ImposbroSearch.ControlPlane.AuditStore

open ImposbroSearch.Foundation

/-! ## The verifier -/

/-- Why a chain is not accepted. All but `unreadable` and `unhashable` are an
`AuditIntegrityError`. -/
inductive AuditChainError where
  /-- A row of the result cannot be decoded. -/
  | unreadable (error : JsonError)
  /-- `Audit head is missing` -/
  | headMissing
  /-- `Audit sequence gap at {expected}` -/
  | sequenceGap (expected : ℕ)
  /-- `Audit previous hash mismatch at sequence {sequence}` -/
  | previousHashMismatch (sequence : ℕ)
  /-- The details are no dict, or the material cannot be printed. -/
  | unhashable (sequence : ℕ)
  /-- `Audit event hash mismatch at sequence {sequence}` -/
  | eventHashMismatch (sequence : ℕ)
  /-- `Audit head does not match the event chain` -/
  | headMismatch
  deriving DecidableEq

/-- `ORDER BY sequence ASC` -/
def bySequence (rows : List AuditRow) : List AuditRow :=
  rows.insertionSort fun first second => first.sequence ≤ second.sequence

section Verifier

variable {F : Type} [PyFloat F] (hash : List ℕ → Text)

/-- The loop of `verify_audit_chain`, from a point of the chain to the last row. -/
def verifyRecords : ChainPoint Text → List (AuditRecord F) →
    Except AuditChainError (ChainPoint Text)
  | point, [] => .ok point
  | point, record :: records =>
    if record.sequence ≠ point.sequence + 1 then .error (.sequenceGap (point.sequence + 1))
    else if record.previousHash ≠ point.hash then .error (.previousHashMismatch record.sequence)
    else
      match record.calculatedHash hash with
      | none => .error (.unhashable record.sequence)
      | some calculated =>
        if record.eventHash ≠ calculated then .error (.eventHashMismatch record.sequence)
        else verifyRecords ⟨record.sequence, calculated⟩ records

variable (F) in
/-- `verify_audit_chain` -/
def verifyAuditChain (rows : List AuditRow) (head : Option (ChainPoint Text)) :
    Except AuditChainError Unit :=
  match (bySequence rows).mapM (AuditRow.read (F := F)) with
  | .error error => .error (.unreadable error)
  | .ok records =>
    match head with
    | none => .error .headMissing
    | some head =>
      match verifyRecords hash genesis records with
      | .error error => .error error
      | .ok point =>
        if head.sequence ≠ records.length ∨ head.hash ≠ point.hash then .error .headMismatch
        else .ok ()

end Verifier

/-! ## Entries -/

section Lists

variable {α β γ : Type*} {R : α → β → Prop} {S : β → γ → Prop}

/-- Rows that are related through rows in between. -/
theorem forall₂_comp {firsts : List α} {lasts : List γ} :
    (∃ between, List.Forall₂ R firsts between ∧ List.Forall₂ S between lasts) ↔
      List.Forall₂ (fun first last => ∃ middle, R first middle ∧ S middle last) firsts lasts := by
  constructor
  · rintro ⟨between, left, right⟩
    induction left generalizing lasts with
    | nil =>
        obtain rfl := List.forall₂_nil_left_iff.mp right
        exact .nil
    | cons here rest ih =>
        obtain ⟨last, others, related, rights, rfl⟩ := List.forall₂_cons_left_iff.mp right
        exact .cons ⟨_, here, related⟩ (ih rights)
  · intro both
    induction both with
    | nil => exact ⟨[], .nil, .nil⟩
    | cons here rest ih =>
        obtain ⟨middle, left, right⟩ := here
        obtain ⟨between, lefts, rights⟩ := ih
        exact ⟨middle :: between, .cons left lefts, .cons right rights⟩

theorem forall₂_members {firsts : List α} {lasts : List β} (all : List.Forall₂ R firsts lasts) :
    List.Forall₂ (fun first last => first ∈ firsts ∧ last ∈ lasts ∧ R first last) firsts lasts := by
  induction all with
  | nil => exact .nil
  | cons here rest ih =>
      refine .cons ⟨List.mem_cons_self, List.mem_cons_self, here⟩ (ih.imp ?_)
      rintro first last ⟨listed, member, related⟩
      exact ⟨List.mem_cons_of_mem _ listed, List.mem_cons_of_mem _ member, related⟩

theorem forall₂_right_mem {firsts : List α} {lasts : List β} (all : List.Forall₂ R firsts lasts)
    {last : β} (member : last ∈ lasts) : ∃ first ∈ firsts, R first last := by
  induction all with
  | nil => cases member
  | cons here rest ih =>
      rcases List.mem_cons.mp member with rfl | later
      · exact ⟨_, List.mem_cons_self, here⟩
      · obtain ⟨first, listed, related⟩ := ih later
        exact ⟨first, List.mem_cons_of_mem _ listed, related⟩

/-- Related rows meet a relation that is about the second ones when all of these do. -/
theorem forall₂_iff_forall_mem {T : α → β → Prop} {P : β → Prop} {firsts : List α}
    {lasts : List β} (all : List.Forall₂ R firsts lasts)
    (same : ∀ first last, R first last → (T first last ↔ P last)) :
    List.Forall₂ T firsts lasts ↔ ∀ last ∈ lasts, P last := by
  induction all with
  | nil => simp
  | cons here rest ih => rw [List.forall₂_cons, same _ _ here, ih, List.forall_mem_cons]

end Lists

section Entries

variable {F : Type}

/-- The chain of what was meant to be recorded. -/
def entryChain (F : Type) [PyFloat F] (hash : List ℕ → Text) : ChainSchema (AuditEntry F) Text where
  sequence entry := entry.material.sequence
  previousHash entry := entry.material.previousHash
  eventHash entry := entry.eventHash
  calculate entry := entry.material.eventHash hash

variable [PyFloat F] {hash : List ℕ → Text}

/-- The entry that a record stands for: the material that is hashed anew, and its hash. -/
def AuditRecord.entry (record : AuditRecord F) : Option (AuditEntry F) :=
  (normalizeDict record.details).map fun details =>
    ⟨record.material details, details.unique, record.eventHash⟩

/-- The entry that a row stands for. -/
def AuditRow.entry (row : AuditRow) : Option (AuditEntry F) :=
  row.read.toOption.bind AuditRecord.entry

theorem AuditRecord.entry_some {record : AuditRecord F} {entry : AuditEntry F}
    (stands : record.entry = some entry) : ∃ details, normalizeDict record.details = some details ∧
      entry.material = record.material details ∧ entry.eventHash = record.eventHash := by
  obtain ⟨details, normalized, rfl⟩ := Option.map_eq_some_iff.mp stands
  exact ⟨details, normalized, rfl, rfl⟩

theorem AuditRow.entry_eq_some {row : AuditRow} {entry : AuditEntry F} :
    row.entry = some entry ↔
      ∃ record : AuditRecord F, row.read = .ok record ∧ record.entry = some entry := by
  unfold AuditRow.entry
  cases AuditRow.read (F := F) row with
  | error error => simp [Except.toOption]
  | ok record => simp [Except.toOption]

/-- The hash of a record is that of the entry it stands for. -/
theorem AuditRecord.calculatedHash_eq (record : AuditRecord F) :
    record.calculatedHash hash = record.entry.bind (entryChain F hash).calculate := by
  unfold calculatedHash entry
  cases normalizeDict record.details with
  | none => rfl
  | some details => rfl

/-- **What the loop accepts** are the entries of a chain. -/
theorem verifyRecords_eq_ok {records : List (AuditRecord F)} {point last : ChainPoint Text} :
    verifyRecords hash point records = .ok last ↔
      ∃ entries, List.Forall₂ (fun record entry => record.entry = some entry) records entries ∧
        (entryChain F hash).Chained point entries ∧ (entryChain F hash).tip point entries = last := by
  induction records generalizing point with
  | nil =>
      constructor
      · intro done
        exact ⟨[], .nil, trivial, Except.ok.inj done⟩
      · rintro ⟨entries, none, -, rfl⟩
        obtain rfl := List.forall₂_nil_left_iff.mp none
        rfl
  | cons record records ih =>
      constructor
      · intro done
        unfold verifyRecords at done
        split_ifs at done with gap link
        split at done
        · cases done
        next calculated hashed =>
          split_ifs at done with differs
          rw [AuditRecord.calculatedHash_eq] at hashed
          obtain ⟨entry, stands, event⟩ := Option.bind_eq_some_iff.mp hashed
          obtain ⟨details, -, material, eventHash⟩ := AuditRecord.entry_some stands
          obtain ⟨entries, rest, chained, tip⟩ := ih.mp done
          have here : (entryChain F hash).point entry = ⟨record.sequence, calculated⟩ := by
            unfold ChainSchema.point entryChain
            simp only
            rw [material, eventHash, not_not.mp differs]
            rfl
          refine ⟨entry :: entries, .cons stands rest, ⟨⟨?_, ?_, ?_⟩, ?_⟩, ?_⟩
          · show entry.material.sequence = _
            rw [material]
            exact not_not.mp gap
          · show entry.material.previousHash = _
            rw [material]
            exact not_not.mp link
          · rw [event]
            show some calculated = some entry.eventHash
            rw [eventHash, not_not.mp differs]
          · rw [here]
            exact chained
          · show (entryChain F hash).tip ((entryChain F hash).point entry) entries = last
            rw [here]
            exact tip
      · rintro ⟨entries, stand, chained, tip⟩
        obtain ⟨entry, others, stands, rest, rfl⟩ := List.forall₂_cons_left_iff.mp stand
        obtain ⟨details, -, material, eventHash⟩ := AuditRecord.entry_some stands
        obtain ⟨follows, chained⟩ := chained
        have sequence : record.sequence = point.sequence + 1 := by
          rw [← follows.sequence]
          exact (congrArg AuditMaterial.sequence material).symm
        have previousHash : record.previousHash = point.hash := by
          rw [← follows.previousHash]
          exact (congrArg AuditMaterial.previousHash material).symm
        have calculated : record.calculatedHash hash = some record.eventHash := by
          rw [AuditRecord.calculatedHash_eq, stands, Option.bind_some, follows.calculated]
          exact congrArg some eventHash
        have here : (entryChain F hash).point entry = ⟨record.sequence, record.eventHash⟩ := by
          unfold ChainSchema.point entryChain
          simp only
          rw [material, eventHash]
          rfl
        unfold verifyRecords
        rw [if_neg (not_not.mpr sequence), if_neg (not_not.mpr previousHash), calculated]
        simp only
        rw [if_neg (not_not.mpr rfl)]
        refine ih.mpr ⟨others, rest, ?_, ?_⟩
        · rw [← here]
          exact chained
        · rw [← here]
          exact tip

/-- All rows are read, or the query fails. -/
theorem mapM_read_eq_ok {rows : List AuditRow} {records : List (AuditRecord F)} :
    rows.mapM AuditRow.read = .ok records ↔
      List.Forall₂ (fun row record => AuditRow.read row = .ok record) rows records := by
  induction rows generalizing records with
  | nil =>
      rw [List.forall₂_nil_left_iff]
      exact ⟨fun done => (Except.ok.inj done).symm, fun none => none ▸ rfl⟩
  | cons row rows ih =>
      rw [List.forall₂_cons_left_iff, List.mapM_cons]
      cases first : AuditRow.read (F := F) row with
      | error error => simp [bind, Except.bind]
      | ok record =>
          cases rest : rows.mapM (AuditRow.read (F := F)) with
          | error error => simp [bind, Except.bind, ← ih, rest]
          | ok others =>
              simp only [bind, Except.bind, pure, Except.pure, Except.ok.injEq, exists_and_left,
                exists_eq_left', ← ih, rest]
              exact eq_comm

/-- **The verifier accepts** exactly the tables whose rows stand for a chain up to the head. -/
theorem verifyAuditChain_eq_ok {rows : List AuditRow} {head : ChainPoint Text} :
    verifyAuditChain F hash rows (some head) = .ok () ↔
      ∃ entries, List.Forall₂ (fun row entry => AuditRow.entry row = some entry)
          (bySequence rows) entries ∧
        (entryChain F hash).Chained genesis entries ∧
        (entryChain F hash).tip genesis entries = head := by
  have counted : ∀ {records : List (AuditRecord F)} {entries : List (AuditEntry F)},
      List.Forall₂ (fun record entry => record.entry = some entry) records entries →
      (entryChain F hash).Chained genesis entries →
      ((entryChain F hash).tip genesis entries).sequence = records.length := by
    intro records entries stand chained
    rw [ChainSchema.tip_sequence chained, stand.length_eq]
    exact Nat.zero_add _
  simp only [AuditRow.entry_eq_some]
  constructor
  · intro accepted
    unfold verifyAuditChain at accepted
    split at accepted
    · cases accepted
    next records read =>
      simp only at accepted
      split at accepted
      · cases accepted
      next point verified =>
        split_ifs at accepted with differs
        push Not at differs
        obtain ⟨entries, stand, chained, rfl⟩ := verifyRecords_eq_ok.mp verified
        refine ⟨entries, forall₂_comp.mp ⟨records, mapM_read_eq_ok.mp read, stand⟩, chained, ?_⟩
        obtain ⟨number, last⟩ := head
        exact ChainPoint.mk.injEq .. ▸ ⟨(counted stand chained).trans differs.1.symm, differs.2.symm⟩
  · rintro ⟨entries, stand, chained, rfl⟩
    obtain ⟨records, read, stand⟩ := forall₂_comp.mpr stand
    unfold verifyAuditChain
    rw [mapM_read_eq_ok.mpr read]
    simp only
    rw [verifyRecords_eq_ok.mpr ⟨entries, stand, chained, rfl⟩]
    simp only
    rw [if_neg]
    push Not
    exact ⟨counted stand chained, rfl⟩

end Entries

end ImposbroSearch.ControlPlane.AuditStore
