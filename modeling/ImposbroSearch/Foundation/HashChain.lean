import Mathlib.Data.List.Forall2
import Mathlib.Tactic.Common

/-!
# Hash chains

Rows that are numbered from one and linked by hashes: each row holds the hash of the row
before it, and its own hash is calculated from the rest of it. A chain commits to its
rows: two chains of one length that end in one hash have rows with the same hashes, and
hence the same rows as far as the hash can tell.
-/

namespace ImposbroSearch.Foundation

/-- How the rows of a chain are read. -/
structure ChainSchema (Row H : Type) where
  sequence : Row → ℕ
  previousHash : Row → H
  eventHash : Row → H
  /-- The hash of a row, if it can be calculated. -/
  calculate : Row → Option H

/-- Where a chain ends: the number of its last row and that row's hash. -/
structure ChainPoint (H : Type) where
  sequence : ℕ
  hash : H
  deriving DecidableEq

namespace ChainSchema

variable {Row H : Type} (schema : ChainSchema Row H)

/-- The point behind one more row. -/
def point (row : Row) : ChainPoint H := ⟨schema.sequence row, schema.eventHash row⟩

/-- A row that follows a point. -/
structure Follows (start : ChainPoint H) (row : Row) : Prop where
  sequence : schema.sequence row = start.sequence + 1
  previousHash : schema.previousHash row = start.hash
  calculated : schema.calculate row = some (schema.eventHash row)

instance [DecidableEq H] (start : ChainPoint H) (row : Row) :
    Decidable (schema.Follows start row) :=
  decidable_of_iff (schema.sequence row = start.sequence + 1 ∧
      schema.previousHash row = start.hash ∧ schema.calculate row = some (schema.eventHash row))
    ⟨fun ⟨sequence, previous, calculated⟩ => ⟨sequence, previous, calculated⟩,
      fun follows => ⟨follows.sequence, follows.previousHash, follows.calculated⟩⟩

/-- Rows that follow one another. -/
def Chained : ChainPoint H → List Row → Prop
  | _, [] => True
  | start, row :: rows => schema.Follows start row ∧ Chained (schema.point row) rows

/-- The end of a row of rows. -/
def tip : ChainPoint H → List Row → ChainPoint H
  | start, [] => start
  | _, row :: rows => tip (schema.point row) rows

variable {schema} {start : ChainPoint H} {rows : List Row}

theorem tip_append (row : Row) : schema.tip start (rows ++ [row]) = schema.point row := by
  induction rows generalizing start with
  | nil => rfl
  | cons first rows ih => exact ih

theorem chained_append {others : List Row} : schema.Chained start (rows ++ others) ↔
    schema.Chained start rows ∧ schema.Chained (schema.tip start rows) others := by
  induction rows generalizing start with
  | nil => exact (and_iff_right trivial).symm
  | cons first rows ih =>
      show _ ∧ schema.Chained _ (rows ++ others) ↔ _
      rw [ih, ← and_assoc]
      rfl

theorem chained_singleton {row : Row} : schema.Chained start [row] ↔ schema.Follows start row :=
  and_iff_left trivial

/-- A chain grows at its tip. -/
theorem Chained.append {row : Row} (chained : schema.Chained start rows)
    (follows : schema.Follows (schema.tip start rows) row) :
    schema.Chained start (rows ++ [row]) :=
  chained_append.mpr ⟨chained, chained_singleton.mpr follows⟩

theorem tip_sequence (chained : schema.Chained start rows) :
    (schema.tip start rows).sequence = start.sequence + rows.length := by
  induction rows generalizing start with
  | nil => rfl
  | cons first rows ih =>
      have rest := ih chained.2
      have next := chained.1.sequence
      show (schema.tip (schema.point first) rows).sequence = _
      rw [rest, List.length_cons]
      unfold point
      simp only
      omega

/-- The number of a row says where it stands. -/
theorem Chained.getElem? {row : Row} (chained : schema.Chained start rows) (member : row ∈ rows) :
    start.sequence < schema.sequence row ∧
      rows[schema.sequence row - start.sequence - 1]? = some row := by
  induction rows generalizing start with
  | nil => cases member
  | cons first rows ih =>
      have next := chained.1.sequence
      rcases List.mem_cons.mp member with rfl | later
      · refine ⟨by omega, ?_⟩
        rw [show schema.sequence row - start.sequence - 1 = 0 by omega]
        rfl
      · obtain ⟨after, here⟩ := ih chained.2 later
        unfold point at after here
        simp only at after here
        refine ⟨by omega, ?_⟩
        rw [show schema.sequence row - start.sequence - 1 =
          (schema.sequence row - schema.sequence first - 1) + 1 by omega, List.getElem?_cons_succ]
        exact here

/-- The hash of each row is calculated from the row. -/
theorem Chained.calculated (chained : schema.Chained start rows) :
    ∀ row ∈ rows, schema.calculate row = some (schema.eventHash row) := by
  induction rows generalizing start with
  | nil => exact fun row member => absurd member List.not_mem_nil
  | cons first rows ih =>
      exact List.forall_mem_cons.mpr ⟨chained.1.calculated, ih chained.2⟩

/-- Rows that a chain cannot tell apart. -/
structure Alike (schema : ChainSchema Row H) (row other : Row) : Prop where
  sequence : schema.sequence row = schema.sequence other
  previousHash : schema.previousHash row = schema.previousHash other
  eventHash : schema.eventHash row = schema.eventHash other
  calculate : schema.calculate row = schema.calculate other

theorem Alike.follows {row other : Row} (alike : schema.Alike row other)
    (follows : schema.Follows start row) : schema.Follows start other where
  sequence := alike.sequence ▸ follows.sequence
  previousHash := alike.previousHash ▸ follows.previousHash
  calculated := by rw [← alike.calculate, ← alike.eventHash, follows.calculated]

theorem Alike.point {row other : Row} (alike : schema.Alike row other) :
    schema.point other = schema.point row := by
  unfold ChainSchema.point
  rw [alike.sequence, alike.eventHash]

/-- A chain stays one, with the same tip, when rows change that it cannot tell apart. -/
theorem Chained.congr {others : List Row} (chained : schema.Chained start rows)
    (alike : List.Forall₂ schema.Alike rows others) :
    schema.Chained start others ∧ schema.tip start others = schema.tip start rows := by
  induction alike generalizing start with
  | nil => exact ⟨trivial, rfl⟩
  | cons here rest ih =>
      obtain ⟨follows, chained⟩ := chained
      obtain ⟨others, tip⟩ := ih chained
      refine ⟨⟨here.follows follows, ?_⟩, ?_⟩
      · rw [here.point]
        exact others
      · show schema.tip (schema.point _) _ = schema.tip (schema.point _) _
        rw [here.point]
        exact tip

/-- A hash binds the hash that its row is linked to. -/
def BindsLinks (schema : ChainSchema Row H) (rows others : List Row) : Prop :=
  ∀ row ∈ rows, ∀ other ∈ others, ∀ hash, schema.calculate row = some hash →
    schema.calculate other = some hash → schema.previousHash row = schema.previousHash other

/-- **Commitment.** Two chains of one length and one last hash have, row by row, the same
hashes, each calculated from its row. -/
theorem Chained.commits {other : ChainPoint H} {others : List Row}
    (chained : schema.Chained start rows) (chained' : schema.Chained other others)
    (binds : schema.BindsLinks rows others) (length : rows.length = others.length)
    (same : (schema.tip start rows).hash = (schema.tip other others).hash) :
    start.hash = other.hash ∧ List.Forall₂ (fun row row' => ∃ hash,
      schema.calculate row = some hash ∧ schema.calculate row' = some hash) rows others := by
  induction rows generalizing start other others with
  | nil =>
      obtain rfl := List.length_eq_zero_iff.mp length.symm
      exact ⟨same, .nil⟩
  | cons first rows ih =>
      cases others with
      | nil => cases length
      | cons second others =>
          obtain ⟨follows, rest⟩ := chained
          obtain ⟨follows', rest'⟩ := chained'
          -- the tails end in one hash, and so begin behind one hash
          obtain ⟨hash, tails⟩ := ih rest rest'
            (fun row member other member' => binds row (List.mem_cons_of_mem _ member) other
              (List.mem_cons_of_mem _ member')) (Nat.succ.inj length) same
          have calculated := follows'.calculated
          rw [← show schema.eventHash first = schema.eventHash second from hash] at calculated
          have linked := binds first List.mem_cons_self second List.mem_cons_self _
            follows.calculated calculated
          rw [follows.previousHash, follows'.previousHash] at linked
          exact ⟨linked, .cons ⟨_, follows.calculated, calculated⟩ tails⟩

end ChainSchema

end ImposbroSearch.Foundation
