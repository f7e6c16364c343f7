import Mathlib.Data.List.Basic
import Mathlib.Tactic.Common

/-!
# Append-only logs read through a cursor

A partition log is a strictly increasing list of offsets; gaps are allowed. A
fetch returns every offset at or above a cursor, and a consumer takes a prefix of
it. `Contiguous` is what such a prefix guarantees: between the cursor and any
fetched offset there is no log record outside the prefix.
-/

namespace ImposbroSearch.Foundation

/-- The offsets of one partition, in log order. -/
structure PartitionLog where
  offsets : List ℕ
  sorted : offsets.Pairwise (· < ·) := by decide

namespace PartitionLog

/-- Every offset at or above the cursor. -/
def fetch (log : PartitionLog) (cursor : ℕ) : List ℕ :=
  log.offsets.filter (cursor ≤ ·)

end PartitionLog

/-- `records` continue the log from `cursor` without skipping any record. -/
def Contiguous (log : List ℕ) : ℕ → List ℕ → Prop
  | _, [] => True
  | cursor, offset :: records =>
    offset ∈ log ∧ cursor ≤ offset ∧ (∀ other ∈ log, other < offset → other < cursor) ∧
      Contiguous log (offset + 1) records

/-- Pairing fetched records with labels takes a prefix of them. -/
theorem Contiguous.zip {α : Type*} {log : List ℕ} :
    ∀ {cursor : ℕ} {records : List ℕ} (labels : List α),
      Contiguous log cursor records → Contiguous log cursor ((records.zip labels).map Prod.fst)
  | _, [], _, _ => by simp [Contiguous]
  | _, _ :: _, [], _ => trivial
  | _, _ :: _, _ :: labels, ⟨member, le, gap, rest⟩ => ⟨member, le, gap, rest.zip labels⟩

theorem Contiguous.le_of_mem {log : List ℕ} :
    ∀ {cursor : ℕ} {records : List ℕ}, Contiguous log cursor records →
      ∀ record ∈ records, cursor ≤ record
  | _, [], _, _, member => by simp at member
  | _, _ :: _, ⟨_, le, _, rest⟩, record, member => by
      rcases List.mem_cons.mp member with rfl | later
      · exact le
      · exact Nat.le_trans le (Nat.le_of_succ_le (rest.le_of_mem record later))

/-- The least fetched offset leaves nothing between itself and the cursor, and
the remaining offsets are what a fetch just above it returns. -/
theorem filter_cons_of_sorted {log : List ℕ} (sorted : log.Pairwise (· < ·)) {cursor offset : ℕ}
    {records : List ℕ} (fetched : log.filter (cursor ≤ ·) = offset :: records) :
    (∀ other ∈ log, other < offset → other < cursor) ∧
      log.filter (offset + 1 ≤ ·) = records := by
  have fetchedSorted : (offset :: records).Pairwise (· < ·) := fetched ▸ sorted.filter _
  rw [List.pairwise_cons] at fetchedSorted
  have inFetch : ∀ {other}, other ∈ log ∧ cursor ≤ other ↔ other ∈ offset :: records := by
    intro other
    rw [← fetched]
    simp
  constructor
  · intro other member below
    by_contra above
    have found := inFetch.mp ⟨member, Nat.not_lt.mp above⟩
    rcases List.mem_cons.mp found with rfl | later
    · exact Nat.lt_irrefl _ below
    · exact absurd (fetchedSorted.1 other later) (by omega)
  · have cursor_le : cursor ≤ offset := (inFetch.mpr List.mem_cons_self).2
    have refetch : log.filter (offset + 1 ≤ ·) =
        (log.filter (cursor ≤ ·)).filter (offset + 1 ≤ ·) := by
      rw [List.filter_filter]
      apply List.filter_congr
      intro other _
      rw [← Bool.decide_and, decide_eq_decide]
      omega
    rw [refetch, fetched, List.filter_cons_of_neg (by simp), List.filter_eq_self]
    intro other member
    exact decide_eq_true (fetchedSorted.1 other member)

theorem contiguous_filter {log : List ℕ} (sorted : log.Pairwise (· < ·)) :
    ∀ (cursor : ℕ) (records : List ℕ),
      log.filter (cursor ≤ ·) = records → Contiguous log cursor records := by
  intro cursor records
  induction records generalizing cursor with
  | nil => exact fun _ => trivial
  | cons offset records ih =>
      intro fetched
      obtain ⟨gap, rest⟩ := filter_cons_of_sorted sorted fetched
      have member : offset ∈ log.filter (cursor ≤ ·) := by
        rw [fetched]
        exact List.mem_cons_self
      rw [List.mem_filter, decide_eq_true_eq] at member
      exact ⟨member.1, member.2, gap, ih (offset + 1) rest⟩

/-- **Fetches are contiguous.** -/
theorem PartitionLog.contiguous_fetch (log : PartitionLog) (cursor : ℕ) :
    Contiguous log.offsets cursor (log.fetch cursor) :=
  contiguous_filter log.sorted cursor _ rfl

end ImposbroSearch.Foundation
