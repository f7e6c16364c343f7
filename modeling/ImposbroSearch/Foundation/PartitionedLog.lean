import Mathlib

/-!
# A partitioned append-only log

A broker keeps its records in partitions and numbers each partition from zero. The
log here is the list of all records in the order of their appends, each with its
partition and its offset in it. The end offset of a partition is the number of its
records, which is also the offset of the next one.

A consumer group's committed offset is a claim about a prefix of a partition. Its
lag is read off an end offset and a committed offset that need not have been read
at the same moment: a lag of zero bounds the end that was read by the commit.
-/

namespace ImposbroSearch.Foundation

/-- A record at its place. -/
structure PlacedRecord (π β : Type*) where
  partition : π
  offset : ℕ
  value : β
  deriving DecidableEq, Repr

/-- The records in the order of their appends, numbered within each partition. -/
structure PartitionedLog (π β : Type*) [DecidableEq π] where
  records : List (PlacedRecord π β)
  ordered : records.Pairwise fun first second =>
    first.partition = second.partition → first.offset < second.offset
  numbered : ∀ record ∈ records,
    record.offset < records.countP fun other => other.partition = record.partition

namespace PartitionedLog

variable {π β : Type*} [DecidableEq π]

def empty : PartitionedLog π β := ⟨[], List.Pairwise.nil, by simp⟩

section Places

variable (log : PartitionedLog π β)

def endOffset (partition : π) : ℕ :=
  log.records.countP fun record => record.partition = partition

def read (partition : π) (offset : ℕ) : Option β :=
  (log.records.find? fun record =>
    record.partition = partition ∧ record.offset = offset).map PlacedRecord.value

/-- The record goes to the end of its partition. -/
def append (partition : π) (value : β) : PartitionedLog π β where
  records := log.records ++ [⟨partition, log.endOffset partition, value⟩]
  ordered := by
    refine List.pairwise_append.mpr ⟨log.ordered, List.pairwise_singleton _ _, ?_⟩
    intro record member last same samePartition
    obtain rfl := List.mem_singleton.mp same
    have below := log.numbered record member
    have samePartition : record.partition = partition := samePartition
    rwa [samePartition] at below
  numbered := by
    intro record member
    rw [List.countP_append]
    rcases List.mem_append.mp member with member | member
    · exact Nat.lt_add_right _ (log.numbered record member)
    · obtain rfl := List.mem_singleton.mp member
      simp [endOffset]

end Places

variable {log : PartitionedLog π β} {partition : π} {value : β}

@[simp] theorem not_mem_empty (record : PlacedRecord π β) :
    record ∉ (empty : PartitionedLog π β).records := List.not_mem_nil

@[simp] theorem endOffset_empty (partition : π) :
    (empty : PartitionedLog π β).endOffset partition = 0 := rfl

theorem mem_append {record : PlacedRecord π β} :
    record ∈ (log.append partition value).records ↔
      record ∈ log.records ∨ record = ⟨partition, log.endOffset partition, value⟩ := by
  simp [append]

theorem offset_lt_endOffset {record : PlacedRecord π β} (member : record ∈ log.records) :
    record.offset < log.endOffset record.partition := log.numbered record member

theorem endOffset_le_append (other : π) :
    log.endOffset other ≤ (log.append partition value).endOffset other := by
  simp only [endOffset, append, List.countP_append]
  exact Nat.le_add_right _ _

/-- A place holds at most one record. -/
theorem eq_of_place {first second : PlacedRecord π β} (inLog : first ∈ log.records)
    (inLog' : second ∈ log.records) (samePartition : first.partition = second.partition)
    (sameOffset : first.offset = second.offset) : first = second := by
  let Apart (first second : PlacedRecord π β) : Prop :=
    first.partition = second.partition → first.offset ≠ second.offset
  have : Std.Symm Apart := ⟨fun _ _ apart same => (apart same.symm).symm⟩
  have apart : log.records.Pairwise Apart := log.ordered.imp fun less same => (less same).ne
  by_contra different
  exact apart.forall inLog inLog' different samePartition sameOffset

theorem read_eq_some {offset : ℕ} :
    log.read partition offset = some value ↔ ⟨partition, offset, value⟩ ∈ log.records := by
  constructor
  · intro picked
    obtain ⟨record, found, rfl⟩ := Option.map_eq_some_iff.mp picked
    have place := List.find?_some found
    simp only [decide_eq_true_eq] at place
    obtain ⟨rfl, rfl⟩ := place
    exact List.mem_of_find?_eq_some found
  · intro member
    cases found : log.records.find? fun record =>
        record.partition = partition ∧ record.offset = offset with
    | none =>
        have absent := List.find?_eq_none.mp found _ member
        simp at absent
    | some record =>
        have place := List.find?_some found
        simp only [decide_eq_true_eq] at place
        rw [read, found, eq_of_place (List.mem_of_find?_eq_some found) member place.1 place.2]
        rfl

/-! ## The order of appends -/

section Positions

variable [DecidableEq β]

/-- How many records had been appended before this one. -/
def position (log : PartitionedLog π β) (record : PlacedRecord π β) : ℕ :=
  log.records.idxOf record

theorem position_append {record : PlacedRecord π β} (member : record ∈ log.records) :
    (log.append partition value).position record = log.position record :=
  List.idxOf_append_of_mem member

theorem position_lt_append {record : PlacedRecord π β} (member : record ∈ log.records) :
    (log.append partition value).position record <
      (log.append partition value).position ⟨partition, log.endOffset partition, value⟩ := by
  rw [position_append member]
  have fresh : (⟨partition, log.endOffset partition, value⟩ : PlacedRecord π β) ∉ log.records :=
    fun old => (offset_lt_endOffset old).ne rfl
  show log.records.idxOf record < (log.records ++ [_]).idxOf _
  rw [List.idxOf_append_of_notMem fresh]
  exact Nat.lt_add_right _ (List.idxOf_lt_length_of_mem member)

/-- Among the records with a property one has been appended last. -/
theorem exists_last {P : PlacedRecord π β → Prop} (some_record : ∃ record ∈ log.records, P record) :
    ∃ last ∈ log.records, P last ∧
      ∀ record ∈ log.records, P record → log.position record ≤ log.position last := by
  classical
  obtain ⟨record, member, holds⟩ := some_record
  obtain ⟨last, picked, greatest⟩ :=
    ((log.records.filter P).toFinset).exists_max_image log.position
      ⟨record, by simp [member, holds]⟩
  simp only [List.mem_toFinset, List.mem_filter, decide_eq_true_eq] at picked greatest
  exact ⟨last, picked.1, picked.2, fun other inLog good => greatest other ⟨inLog, good⟩⟩

end Positions

end PartitionedLog

end ImposbroSearch.Foundation
