import Mathlib.Order.WithBot
import Mathlib.Tactic.Common

/-!
# Last-writer-wins cells whose recorded version lags the value

A cell stores a value and, separately, the version of the last write that is
*recorded* for it. The two are not written together: a write can take effect
and lose its record, so the value may be ahead of the recorded version but
never behind it. `Ahead` is that relation, and `Move` is everything that may
happen to such a cell: nothing, a recorded write, or an orphaned one.

The admissible writes are a relation between versions and values, so a version
may have no write at all.
-/

namespace ImposbroSearch.Foundation

/-- A stored value with the version recorded for it. -/
@[ext] structure Cell (ι V : Type*) where
  value : V
  version : WithBot ι

namespace Cell

variable {ι V : Type*} [LinearOrder ι]

/-- The moves of a cell. A write is admitted only above the recorded version. -/
inductive Move (writes : ι → V → Prop) (c : Cell ι V) : Cell ι V → Prop
  | keep : Move writes c c
  | record (n : ι) (v : V) (written : writes n v) (newer : c.version < n) :
      Move writes c ⟨v, n⟩
  | orphan (n : ι) (v : V) (written : writes n v) (newer : c.version < n) :
      Move writes c ⟨v, c.version⟩

/-- The value is that of some write at or above the recorded version. A cell
without a recorded version promises nothing. -/
def Ahead (writes : ι → V → Prop) (c : Cell ι V) : Prop :=
  ∀ n : ι, c.version = n → ∃ m, n ≤ m ∧ writes m c.value

variable {writes : ι → V → Prop} {c c' : Cell ι V}

theorem ahead_of_unversioned (h : c.version = ⊥) : Ahead writes c := by
  intro n hn
  rw [h] at hn
  exact absurd hn.symm WithBot.coe_ne_bot

theorem Move.version_le (move : Move writes c c') : c.version ≤ c'.version := by
  cases move with
  | keep => exact le_refl _
  | record n v written newer => exact le_of_lt newer
  | orphan n v written newer => exact le_refl _

/-- **Step rule.** Moves keep the value at or ahead of the record. -/
theorem Ahead.move (ahead : Ahead writes c) (move : Move writes c c') : Ahead writes c' := by
  cases move with
  | keep => exact ahead
  | record n v written newer =>
      intro k hk
      obtain rfl : n = k := WithBot.coe_inj.mp hk
      exact ⟨n, le_refl n, written⟩
  | orphan n v written newer =>
      intro k hk
      have below : k < n := by
        rw [show c.version = k from hk] at newer
        exact WithBot.coe_lt_coe.mp newer
      exact ⟨n, le_of_lt below, written⟩

/-- **Settled cells.** Once the greatest version is recorded, the value is that
version's write: nothing newer exists for the value to be ahead by. -/
theorem Ahead.settled (ahead : Ahead writes c) {n : ι} (recorded : c.version = n)
    (greatest : ∀ m v, writes m v → m ≤ n) : writes n c.value := by
  obtain ⟨m, le, written⟩ := ahead n recorded
  rwa [le_antisymm (greatest m _ written) le] at written

end Cell

end ImposbroSearch.Foundation
