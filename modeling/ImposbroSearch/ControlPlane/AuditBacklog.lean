import ImposbroSearch.ControlPlane.AuditDelivery
import Mathlib.Data.List.MinMax
import Mathlib.Order.Bounds.Basic

/-!
# The backlog statistic of audit delivery

What `stats` reports of the delivery of the audit chain. The head and the aggregates of the
checkpoints are two selects, so the checkpoints may be ahead of the head. A missing
aggregate and a zero are both falsy, and `or` puts the fallback in the place of either:
the minimum of the checkpoints is zero as soon as one destination has received nothing.
-/

namespace ImposbroSearch.ControlPlane.AuditDelivery

open ImposbroSearch.Foundation

/-- `AuditDeliveryStats` -/
structure AuditDeliveryStats where
  destinations : ℕ
  headSequence : ℕ
  maxBacklog : ℤ
  failedDestinations : ℕ
  deriving DecidableEq

/-- `value or fallback`, of a column that may be `NULL`. -/
def valueOr (value : Option ℕ) (fallback : ℕ) : ℕ :=
  match value with
  | none => fallback
  | some value => if value = 0 then fallback else value

/-- `SUM(CASE WHEN failure_attempts > 0 THEN 1 ELSE 0 END)`, which is `NULL` of no rows. -/
def failedSum (rows : List AuditDeliveryCheckpoint) : Option ℕ :=
  if rows.isEmpty then none
  else some (rows.map fun row => if 0 < row.failureAttempts then 1 else 0).sum

/-- `stats`, of the head that was selected, if there is one, and the checkpoints. -/
def stats (selected : Option ℕ) (rows : List AuditDeliveryCheckpoint) : AuditDeliveryStats :=
  let head := valueOr selected 0
  let minimum := valueOr (rows.map AuditDeliveryCheckpoint.lastSequence).min? head
  { destinations := rows.length
    headSequence := head
    maxBacklog := if rows.length = 0 then 0 else max ((head : ℤ) - minimum) 0
    failedDestinations := valueOr (failedSum rows) 0 }

/-! ## The statistic and the backlogs -/

/-- How far each destination is behind the head. -/
def backlogs (head : ℕ) (rows : List AuditDeliveryCheckpoint) : Set ℤ :=
  { backlog | ∃ row ∈ rows, (head : ℤ) - row.lastSequence = backlog }

/-- The statistic is the greatest backlog; of no destination it is zero. -/
def ReportsMaximum (selected : Option ℕ) (rows : List AuditDeliveryCheckpoint) : Prop :=
  rows = [] ∧ (stats selected rows).maxBacklog = 0 ∨
    IsGreatest (backlogs (selected.getD 0) rows) (stats selected rows).maxBacklog

theorem valueOr_zero (value : Option ℕ) : valueOr value 0 = value.getD 0 := by
  rcases value with _ | _ | value <;> rfl

theorem valueOr_pos {value : ℕ} (positive : value ≠ 0) (fallback : ℕ) :
    valueOr (some value) fallback = value := if_neg positive

section Statistic

variable {selected : Option ℕ} {rows : List AuditDeliveryCheckpoint} {minimum : ℕ}

/-- The destination that is furthest behind, by its checkpoint. -/
def IsFurthestBehind (rows : List AuditDeliveryCheckpoint) (minimum : ℕ) : Prop :=
  (∃ row ∈ rows, row.lastSequence = minimum) ∧ ∀ row ∈ rows, minimum ≤ row.lastSequence

theorem min?_eq_some_iff :
    (rows.map AuditDeliveryCheckpoint.lastSequence).min? = some minimum ↔
      IsFurthestBehind rows minimum := by
  rw [List.min?_eq_some_iff, IsFurthestBehind, List.mem_map, List.forall_mem_map]

theorem exists_furthestBehind (registered : rows ≠ []) :
    ∃ minimum, IsFurthestBehind rows minimum := by
  have occupied : rows.map AuditDeliveryCheckpoint.lastSequence ≠ [] := by
    rwa [ne_eq, List.map_eq_nil_iff]
  obtain ⟨minimum, least⟩ :=
    Option.isSome_iff_exists.mp (List.isSome_min?_of_ne_nil occupied)
  exact ⟨minimum, min?_eq_some_iff.mp least⟩

theorem isGreatest_backlogs (head : ℕ) (least : IsFurthestBehind rows minimum) :
    IsGreatest (backlogs head rows) ((head : ℤ) - minimum) := by
  obtain ⟨⟨row, member, rfl⟩, lower⟩ := least
  refine ⟨⟨row, member, rfl⟩, ?_⟩
  rintro backlog ⟨other, otherMember, rfl⟩
  have := lower other otherMember
  omega

/-- The statistic by the minimum that the database computes. -/
theorem maxBacklog_eq (least : IsFurthestBehind rows minimum) :
    (stats selected rows).maxBacklog =
      if minimum = 0 then 0 else max (((selected.getD 0 : ℕ) : ℤ) - minimum) 0 := by
  have registered : rows.length ≠ 0 := by
    obtain ⟨row, member, -⟩ := least.1
    exact (List.length_pos_of_mem member).ne'
  unfold stats
  simp only [if_neg registered, min?_eq_some_iff.mpr least, valueOr_zero]
  by_cases zero : minimum = 0
  · rw [if_pos zero, zero]
    -- the fallback is the head itself
    exact max_eq_right (sub_nonpos.mpr (le_refl _))
  · rw [if_neg zero, valueOr_pos zero]

/-- **A destination that has received nothing silences the statistic**, whatever the others
have received and however long the chain is. -/
theorem maxBacklog_of_undelivered {row : AuditDeliveryCheckpoint} (member : row ∈ rows)
    (nothing : row.lastSequence = 0) : (stats selected rows).maxBacklog = 0 := by
  have least : IsFurthestBehind rows 0 := ⟨⟨row, member, nothing⟩, fun _ _ => Nat.zero_le _⟩
  rw [maxBacklog_eq least, if_pos rfl]

end Statistic

/-- **When the reported backlog is the greatest.** Some destination is not ahead of the
head that was read, and, unless the chain is empty, every destination has received
something. -/
theorem max_backlog_iff (selected : Option ℕ) (rows : List AuditDeliveryCheckpoint) :
    ReportsMaximum selected rows ↔
      rows = [] ∨
        (∃ row ∈ rows, row.lastSequence ≤ selected.getD 0) ∧
          (selected.getD 0 = 0 ∨ ∀ row ∈ rows, row.lastSequence ≠ 0) := by
  rcases eq_or_ne rows [] with rfl | registered
  · exact iff_of_true (Or.inl ⟨rfl, rfl⟩) (Or.inl rfl)
  obtain ⟨minimum, least⟩ := exists_furthestBehind registered
  generalize selectedHead : selected.getD 0 = head
  have reports : ReportsMaximum selected rows ↔
      (if minimum = 0 then 0 else max ((head : ℤ) - minimum) 0) = (head : ℤ) - minimum := by
    unfold ReportsMaximum
    rw [maxBacklog_eq least, selectedHead]
    constructor
    · rintro (⟨empty, -⟩ | greatest)
      · exact absurd empty registered
      · exact greatest.unique (isGreatest_backlogs head least)
    · intro same
      right
      rw [same]
      exact isGreatest_backlogs head least
  have reached : (∃ row ∈ rows, row.lastSequence ≤ head) ↔ minimum ≤ head := by
    constructor
    · rintro ⟨row, member, behind⟩
      exact (least.2 row member).trans behind
    · intro behind
      obtain ⟨row, member, same⟩ := least.1
      exact ⟨row, member, same.trans_le behind⟩
  have started : (∀ row ∈ rows, row.lastSequence ≠ 0) ↔ minimum ≠ 0 := by
    constructor
    · intro all
      obtain ⟨row, member, same⟩ := least.1
      exact same ▸ all row member
    · intro positive row member
      have := least.2 row member
      omega
  rw [reports, reached, started]
  by_cases zero : minimum = 0
  · rw [if_pos zero]
    subst zero
    simp only [registered, false_or]
    omega
  · rw [if_neg zero]
    simp only [registered, false_or]
    omega

/-- A destination that was registered behind a chain of five events. -/
def newDestination : AuditDeliveryCheckpoint where
  destinationId := chars "security-archive"
  lastSequence := 0
  lastEventHash := zeroAuditHash
  lastSuccessAt := none
  failureAttempts := 0
  lastErrorCode := none
  nextRetryAt := none

/-- Five events are undelivered, and the statistic is zero. -/
theorem undelivered_destination_unreported : ¬ReportsMaximum (some 5) [newDestination] := by
  rintro (⟨empty, -⟩ | greatest)
  · exact absurd empty (List.cons_ne_nil _ _)
  · have upper := greatest.2 ⟨newDestination, List.mem_singleton_self _, rfl⟩
    exact absurd upper (by decide)

/-! ## Registration -/

namespace DeliveryWorld

variable {F : Type}

/-- The rows of the checkpoint table, in any order. -/
def Lists (w : DeliveryWorld F) (rows : List AuditDeliveryCheckpoint) : Prop :=
  ∀ checkpoint, checkpoint ∈ rows ↔ ∃ destination, w.checkpoints destination = some checkpoint

/-- **The registration of a destination silences the statistic of the table**, until the
destination has received its first page. -/
theorem maxBacklog_ensureDestination (w : DeliveryWorld F) (id : ℕ) (delivery : Delivery F)
    (selected : Option ℕ) {rows : List AuditDeliveryCheckpoint}
    (absent : w.checkpoints delivery.destinationId = none)
    (listed : (w.ensureDestination id delivery).Lists rows) :
    (stats selected rows).maxBacklog = 0 := by
  have registered : ∃ checkpoint : AuditDeliveryCheckpoint, checkpoint.lastSequence = 0 ∧
      (w.ensureDestination id delivery).checkpoints delivery.destinationId = some checkpoint := by
    unfold ensureDestination
    rw [absent]
    exact ⟨_, rfl, if_pos rfl⟩
  obtain ⟨checkpoint, nothing, found⟩ := registered
  exact maxBacklog_of_undelivered ((listed checkpoint).mpr ⟨_, found⟩) nothing

end DeliveryWorld

end ImposbroSearch.ControlPlane.AuditDelivery
