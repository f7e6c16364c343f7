import ImposbroSearch.Foundation.Lockstep
import ImposbroSearch.Foundation.Runs

/-!
# Linearization

A sequential object answers one call after another. A concurrent machine linearizes it
when each step of the machine either takes no effect, or takes effect as one call of the
object and notes down what the object answers. Whatever the schedule, what the machine has
noted down by then are the answers of the object to calls made one after another, in the
order in which they took effect.
-/

namespace ImposbroSearch.Foundation

variable {κ α σ γ ρ τ : Type*}

section Objects

variable (object : σ → γ → ρ × σ)

/-- The object after some calls. -/
def afterCalls (s : σ) (calls : List γ) : σ := run (fun s call => (object s call).2) s calls

theorem answers_length (s : σ) (calls : List γ) :
    (answers object s calls).length = calls.length := by
  induction calls generalizing s with
  | nil => rfl
  | cons call calls ih => exact congrArg (· + 1) (ih _)

theorem answers_snoc (s : σ) (calls : List γ) (call : γ) :
    answers object s (calls ++ [call]) =
      answers object s calls ++ [(object (afterCalls object s calls) call).1] := by
  induction calls generalizing s with
  | nil => rfl
  | cons first calls ih => exact congrArg (List.cons _) (ih _)

end Objects

variable {object : σ → γ → ρ × σ} {shown : γ → ρ → τ} {Mirrors : κ → σ → Prop}
  {noted : κ → List τ}

/-- A step that takes effect as one call at most. -/
def TakesEffect (object : σ → γ → ρ × σ) (shown : γ → ρ → τ) (Mirrors : κ → σ → Prop)
    (noted : κ → List τ) (before after : κ) : Prop :=
  ∀ s, Mirrors before s →
    (noted after = noted before ∧ Mirrors after s) ∨
      ∃ call, noted after = noted before ++ [shown call (object s call).1] ∧
        Mirrors after (object s call).2

/-- What a machine has noted down is what the object answers to calls in order, which
leave the object as the machine mirrors it. -/
def Linearizes (object : σ → γ → ρ × σ) (shown : γ → ρ → τ) (Mirrors : κ → σ → Prop)
    (noted : κ → List τ) (first : σ) (machine : κ) : Prop :=
  ∃ calls, noted machine = List.zipWith shown calls (answers object first calls) ∧
    Mirrors machine (afterCalls object first calls)

/-- One more step. -/
theorem Linearizes.step {first : σ} {before after : κ}
    (linear : Linearizes object shown Mirrors noted first before)
    (effect : TakesEffect object shown Mirrors noted before after) :
    Linearizes object shown Mirrors noted first after := by
  obtain ⟨calls, same, mirrors⟩ := linear
  rcases effect _ mirrors with ⟨silent, still⟩ | ⟨call, note, next⟩
  · exact ⟨calls, silent.trans same, still⟩
  · refine ⟨calls ++ [call], ?_, ?_⟩
    · rw [note, same, answers_snoc, List.zipWith_append (answers_length object first calls).symm]
      rfl
    · unfold afterCalls at next ⊢
      rw [run_snoc]
      exact next

/-- **Linearization rule.** Under an invariant of the machine under which each of its steps
takes effect as one call at most, every run linearizes the object. -/
theorem run_linearizes {step : κ → α → κ} {I : κ → Prop}
    (effect : ∀ machine action, I machine →
      TakesEffect object shown Mirrors noted machine (step machine action))
    (preserved : ∀ machine action, I machine → I (step machine action)) {machine : κ} {first : σ}
    (initial : I machine) (mirrors : Mirrors machine first) (empty : noted machine = [])
    (actions : List α) :
    Linearizes object shown Mirrors noted first (run step machine actions) := by
  have both : I (run step machine actions) ∧
      Linearizes object shown Mirrors noted first (run step machine actions) :=
    run_invariant_always (I := fun machine => I machine ∧
        Linearizes object shown Mirrors noted first machine)
      (fun machine action holds => ⟨preserved machine action holds.1,
        holds.2.step (effect machine action holds.1)⟩)
      ⟨initial, [], empty, mirrors⟩
  exact both.2

end ImposbroSearch.Foundation
