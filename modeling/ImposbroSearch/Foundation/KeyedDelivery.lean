import Mathlib.Data.List.Basic
import Mathlib.Data.List.Pairwise
import Mathlib.Tactic.Common

/-!
# First-in first-out per key

A partitioned log keeps the order of records that share a key and says nothing
about records that do not. A delivery order is therefore admissible when, at
every record, all earlier records of the same key have been delivered before.
Redelivery is admissible too: a record may occur again at any later place.

Any part of the log that is closed under earlier records of its own keys is an
admissible order, and admissible orders can be run one after the other. That is
all it takes to build the orders in which one key overtakes another.
-/

namespace ImposbroSearch.Foundation

variable {α κ : Type*}

/-- `order` delivers records of `log`, per key in the order of their ranks. -/
structure Fifo (key : α → κ) (rank : α → ℕ) (log order : List α) : Prop where
  sent : ∀ record ∈ order, record ∈ log
  earlier : ∀ pre record post, order = pre ++ record :: post →
    ∀ other ∈ log, key other = key record → rank other < rank record → other ∈ pre

namespace Fifo

variable {key : α → κ} {rank : α → ℕ} {log order more : List α} {record : α}

theorem nil : Fifo key rank log [] where
  sent := by simp
  earlier := by simp

theorem append (first : Fifo key rank log order) (second : Fifo key rank log more) :
    Fifo key rank log (order ++ more) where
  sent record member := by
    rcases List.mem_append.mp member with member | member
    · exact first.sent record member
    · exact second.sent record member
  earlier pre record post split other member sameKey lower := by
    rcases List.append_eq_append_iff.mp split with ⟨middle, rfl, rest⟩ | ⟨middle, whole, rest⟩
    · exact List.mem_append_right _ (second.earlier middle record post rest other member sameKey
        lower)
    · cases middle with
      | nil =>
          rw [List.append_nil] at whole
          rw [List.nil_append] at rest
          exact absurd (second.earlier [] record post rest.symm other member sameKey lower)
            List.not_mem_nil
      | cons head middle =>
          rw [List.cons_append, List.cons.injEq] at rest
          obtain ⟨rfl, -⟩ := rest
          exact first.earlier pre record middle whole other member sameKey lower

/-- One more record may follow once its predecessors have been delivered. -/
theorem snoc (fifo : Fifo key rank log order) (member : record ∈ log)
    (delivered : ∀ other ∈ log, key other = key record → rank other < rank record →
      other ∈ order) : Fifo key rank log (order ++ [record]) where
  sent other found := by
    rcases List.mem_append.mp found with found | found
    · exact fifo.sent other found
    · rw [List.mem_singleton.mp found]
      exact member
  earlier pre next post split := by
    rcases List.eq_nil_or_concat post with rfl | ⟨post, last, rfl⟩
    · obtain ⟨rfl, rfl⟩ := List.append_inj' split rfl |>.imp id List.singleton_inj.mp
      exact delivered
    · have front : order = pre ++ next :: post := by
        rw [List.concat_eq_append, ← List.cons_append, ← List.append_assoc] at split
        exact (List.append_inj' split rfl).1
      exact fifo.earlier pre next post front

theorem left (fifo : Fifo key rank log (order ++ more)) : Fifo key rank log order where
  sent record member := fifo.sent record (List.mem_append_left _ member)
  earlier pre record post split := by
    refine fifo.earlier pre record (post ++ more) ?_
    rw [split, List.append_assoc, List.cons_append]

/-- Whatever precedes the last record of an admissible order includes every
earlier record of its key. -/
theorem last_earlier (fifo : Fifo key rank log (order ++ [record])) {other : α}
    (member : other ∈ log) (sameKey : key other = key record)
    (lower : rank other < rank record) : other ∈ order :=
  fifo.earlier order record [] rfl other member sameKey lower

/-- A record is not delivered before a lower one of its key. -/
theorem rank_le_of_fresh (fifo : Fifo key rank log order) (member : record ∈ log)
    (fresh : record ∉ order) {other : α} (delivered : other ∈ order)
    (sameKey : key other = key record) : rank other ≤ rank record := by
  by_contra above
  obtain ⟨pre, post, split⟩ := List.append_of_mem delivered
  have overtaken := fifo.earlier pre other post split record member sameKey.symm (by omega)
  exact fresh (by rw [split]; exact List.mem_append_left _ overtaken)

/-- A part of the log closed under earlier records of its keys can be delivered
in log order. -/
theorem filter {p : α → Bool}
    (sorted : log.Pairwise fun first second => key first = key second → rank first < rank second)
    (closed : ∀ record ∈ log, p record = true → ∀ other ∈ log, key other = key record →
      rank other < rank record → p other = true) : Fifo key rank log (log.filter p) where
  sent record member := (List.mem_filter.mp member).1
  earlier pre record post split other member sameKey lower := by
    have here : record ∈ log.filter p := by simp [split]
    obtain ⟨inLog, picked⟩ := List.mem_filter.mp here
    have kept : other ∈ log.filter p :=
      List.mem_filter.mpr ⟨member, closed record inLog picked other member sameKey lower⟩
    have order := sorted.filter p
    rw [split] at kept order
    rcases List.mem_append.mp kept with before | after
    · exact before
    · rcases List.mem_cons.mp after with rfl | after
      · omega
      · have later := (List.pairwise_cons.mp (List.pairwise_append.mp order).2.1).1 other after
        exact absurd (later sameKey.symm) (by omega)

end Fifo

end ImposbroSearch.Foundation
