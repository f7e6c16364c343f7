import Mathlib

/-!
# Rankings

A comparison function ranks the items of a set when it is a total order of them with ties.
Keys rank, and one ranking refines another where that one ties. A comparison that is an
order of some items only is a ranking on these.
-/

namespace ImposbroSearch.Foundation

variable {H : Type*} {S T : H → Prop} {cmp other : H → H → Ordering} {a b c : H}

/-- `(left > right) - (left < right)` -/
def comparison {K : Type*} [LinearOrder K] (left right : K) : Ordering :=
  if right < left then .gt else if left < right then .lt else .eq

/-- The comparison is a total order of these items, with ties. -/
structure RanksOn (cmp : H → H → Ordering) (S : H → Prop) : Prop where
  swap : ∀ {a b}, S a → S b → cmp b a = (cmp a b).swap
  trans : ∀ {a b c}, S a → S b → S c → cmp a b ≠ .gt → cmp b c ≠ .gt → cmp a c ≠ .gt

namespace RanksOn

theorem mono (ranks : RanksOn cmp S) (inside : ∀ h, T h → S h) : RanksOn cmp T where
  swap first second := ranks.swap (inside _ first) (inside _ second)
  trans first second third := ranks.trans (inside _ first) (inside _ second) (inside _ third)

theorem self (ranks : RanksOn cmp S) (here : S a) : cmp a a = .eq := by
  have swapped := ranks.swap here here
  cases same : cmp a a with
  | eq => rfl
  | lt => rw [same] at swapped; cases swapped
  | gt => rw [same] at swapped; cases swapped

theorem not_gt_iff (ranks : RanksOn cmp S) (first : S a) (second : S b) :
    cmp a b ≠ .gt ↔ cmp b a ≠ .lt := by
  rw [ranks.swap first second]
  cases cmp a b with
  | _ => decide

theorem lt_of_lt_of_le (ranks : RanksOn cmp S) (first : S a) (second : S b) (third : S c)
    (lt : cmp a b = .lt) (le : cmp b c ≠ .gt) : cmp a c = .lt := by
  by_contra other
  have back : cmp c a ≠ .gt := by
    rw [ranks.not_gt_iff third first]
    exact other
  have closed := ranks.trans second third first le back
  rw [ranks.not_gt_iff second first, lt] at closed
  exact closed rfl

theorem lt_of_le_of_lt (ranks : RanksOn cmp S) (first : S a) (second : S b) (third : S c)
    (le : cmp a b ≠ .gt) (lt : cmp b c = .lt) : cmp a c = .lt := by
  by_contra other
  have back : cmp c a ≠ .gt := by
    rw [ranks.not_gt_iff third first]
    exact other
  have closed := ranks.trans third first second back le
  rw [ranks.not_gt_iff third second, lt] at closed
  exact closed rfl

theorem eq_of_le_of_le (ranks : RanksOn cmp S) (first : S a) (second : S b)
    (le : cmp a b ≠ .gt) (ge : cmp b a ≠ .gt) : cmp a b = .eq := by
  rw [ranks.not_gt_iff second first] at ge
  cases same : cmp a b with
  | eq => rfl
  | lt => exact absurd same ge
  | gt => exact absurd same le

theorem eq_symm (ranks : RanksOn cmp S) (first : S a) (second : S b) (tie : cmp a b = .eq) :
    cmp b a = .eq := by
  rw [ranks.swap first second, tie]
  rfl

theorem eq_trans (ranks : RanksOn cmp S) (first : S a) (second : S b) (third : S c)
    (tie : cmp a b = .eq) (tie' : cmp b c = .eq) : cmp a c = .eq := by
  have forth : cmp a c ≠ .gt :=
    ranks.trans first second third (by rw [tie]; decide) (by rw [tie']; decide)
  have back : cmp c a ≠ .gt := by
    refine ranks.trans third second first ?_ ?_
    · rw [ranks.eq_symm second third tie']
      decide
    · rw [ranks.eq_symm first second tie]
      decide
  exact ranks.eq_of_le_of_le first third forth back

/-- What is before one of two that tie is before the other. -/
theorem lt_iff_of_eq (ranks : RanksOn cmp S) (first : S a) (second : S b) (third : S c)
    (tie : cmp a b = .eq) : cmp c a = .lt ↔ cmp c b = .lt := by
  constructor
  · exact fun lt => ranks.lt_of_lt_of_le third first second lt (by rw [tie]; decide)
  · intro lt
    refine ranks.lt_of_lt_of_le third second first lt ?_
    rw [ranks.eq_symm first second tie]
    decide

/-- Ranked backwards. -/
theorem backwards (ranks : RanksOn cmp S) : RanksOn (fun a b => (cmp a b).swap) S where
  swap first second := by rw [ranks.swap first second]
  trans {a b c} first second third le le' := by
    rw [← ranks.swap first second] at le
    rw [← ranks.swap second third] at le'
    rw [← ranks.swap first third]
    exact ranks.trans third second first le' le

/-- Another comparison decides where this one ties. -/
theorem «then» (ranks : RanksOn cmp S) (ranks' : RanksOn other S) :
    RanksOn (fun a b => (cmp a b).then (other a b)) S where
  swap first second := by
    rw [ranks.swap first second, ranks'.swap first second, Ordering.swap_then]
  trans := by
    intro a b c first second third le le'
    cases ab : cmp a b with
    | gt =>
        rw [ab] at le
        exact absurd rfl le
    | lt =>
        have further : cmp b c ≠ .gt := by
          intro gt
          rw [gt] at le'
          exact le' rfl
        rw [ranks.lt_of_lt_of_le first second third ab further]
        exact fun gt => nomatch gt
    | eq =>
        rw [ab] at le
        cases bc : cmp b c with
        | gt =>
            rw [bc] at le'
            exact absurd rfl le'
        | lt =>
            rw [ranks.lt_of_le_of_lt first second third (by rw [ab]; decide) bc]
            exact fun gt => nomatch gt
        | eq =>
            rw [bc] at le'
            rw [ranks.eq_trans first second third ab bc]
            exact ranks'.trans first second third le le'

end RanksOn

/-! ## Keys -/

variable {K : Type*} [LinearOrder K] {left right : K}

theorem comparison_swap (left right : K) :
    comparison right left = (comparison left right).swap := by
  unfold comparison
  rcases lt_trichotomy left right with less | same | more
  · rw [if_neg less.not_gt, if_neg less.not_gt, if_pos less, if_pos less]
    rfl
  · rw [same, if_neg (lt_irrefl right), if_neg (lt_irrefl right)]
    rfl
  · rw [if_pos more, if_neg more.not_gt, if_pos more]
    rfl

theorem comparison_ne_gt : comparison left right ≠ .gt ↔ left ≤ right := by
  unfold comparison
  split_ifs with more less
  · simp [more]
  · simp [less.le]
  · simp [not_lt.mp more]

theorem comparison_eq : comparison left right = .eq ↔ left = right := by
  unfold comparison
  split_ifs with more less
  · simp [more.ne']
  · simp [less.ne]
  · simp [le_antisymm (not_lt.mp less) (not_lt.mp more)]

/-- A key ranks. -/
theorem ranksOn_comparison (key : H → K) : RanksOn (fun a b => comparison (key a) (key b)) S where
  swap _ _ := comparison_swap _ _
  trans _ _ _ first second := by
    rw [comparison_ne_gt] at first second ⊢
    exact first.trans second

end ImposbroSearch.Foundation
