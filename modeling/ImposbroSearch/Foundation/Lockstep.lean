import Mathlib.Data.List.Basic

/-!
# Two machines in lockstep

A machine answers every action and moves on. Two machines give the same answers when
some relation of their states, which may also look at the actions still to come,
makes each pair of answers agree and is kept by each pair of steps.
-/

namespace ImposbroSearch.Foundation

variable {σ τ α β : Type*}

/-- The answers of a machine, action by action. -/
def answers (step : σ → α → β × σ) : σ → List α → List β
  | _, [] => []
  | s, a :: as => (step s a).1 :: answers step (step s a).2 as

/-- **Lockstep rule.** -/
theorem answers_eq_of_lockstep {left : σ → α → β × σ} {right : τ → α → β × τ}
    {R : List α → σ → τ → Prop}
    (agree : ∀ a as s t, R (a :: as) s t →
      (left s a).1 = (right t a).1 ∧ R as (left s a).2 (right t a).2)
    {as : List α} : ∀ {s : σ} {t : τ}, R as s t → answers left s as = answers right t as := by
  induction as with
  | nil => exact fun _ => rfl
  | cons a as ih =>
      intro s t related
      obtain ⟨same, next⟩ := agree a as s t related
      exact congrArg₂ List.cons same (ih next)

end ImposbroSearch.Foundation
