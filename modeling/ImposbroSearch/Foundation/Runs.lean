import Mathlib.Data.List.Basic
import Mathlib.Data.List.Induction
import Mathlib.Tactic.Common

/-!
# Runs of a deterministic machine

A machine is a step function. A run is the left fold of its actions, so every
reachable state is `run step s as` for some action list. The schedule is the
action list itself: interleavings, faults, and lost messages are all actions.

`Along C` says that every action of a run is taken from a state that meets
`C`. It is how a development states the exact condition under which a step is
harmless, and it is what the two invariant rules below consume.
-/

namespace ImposbroSearch.Foundation

variable {σ α : Type*}

/-- The state reached from `s` by the actions `as`, in order. -/
def run (step : σ → α → σ) (s : σ) (as : List α) : σ :=
  as.foldl step s

/-- Every action of `as` is taken from a state that meets `C`. -/
def Along (step : σ → α → σ) (C : σ → α → Prop) : σ → List α → Prop
  | _, [] => True
  | s, a :: as => C s a ∧ Along step C (step s a) as

section Basic

variable (step : σ → α → σ) (C : σ → α → Prop) (s : σ)

@[simp] theorem run_nil : run step s [] = s := rfl

@[simp] theorem run_cons (a : α) (as : List α) :
    run step s (a :: as) = run step (step s a) as := rfl

theorem run_append (as bs : List α) :
    run step s (as ++ bs) = run step (run step s as) bs := by
  simp only [run, List.foldl_append]

theorem run_snoc (as : List α) (a : α) :
    run step s (as ++ [a]) = step (run step s as) a := by
  rw [run_append, run_cons, run_nil]

@[simp] theorem along_nil : Along step C s [] := trivial

@[simp] theorem along_cons (a : α) (as : List α) :
    Along step C s (a :: as) ↔ C s a ∧ Along step C (step s a) as := Iff.rfl

theorem along_append (as bs : List α) :
    Along step C s (as ++ bs) ↔
      Along step C s as ∧ Along step C (run step s as) bs := by
  induction as generalizing s with
  | nil => simp
  | cons a as ih =>
      simp only [List.cons_append, along_cons, run_cons, ih, and_assoc]

theorem along_snoc (as : List α) (a : α) :
    Along step C s (as ++ [a]) ↔ Along step C s as ∧ C (run step s as) a := by
  rw [along_append]
  simp

end Basic

variable {step : σ → α → σ} {C D : σ → α → Prop} {I : σ → Prop} {s : σ}

theorem Along.mono (h : ∀ s a, C s a → D s a) {as : List α}
    (along : Along step C s as) : Along step D s as := by
  induction as generalizing s with
  | nil => trivial
  | cons a as ih => exact ⟨h s a along.1, ih along.2⟩

theorem along_of_forall {P : α → Prop} {as : List α} (each : ∀ a ∈ as, P a) :
    Along step (fun _ a => P a) s as := by
  induction as generalizing s with
  | nil => trivial
  | cons a as ih =>
      exact ⟨each a List.mem_cons_self, ih fun b member => each b (List.mem_cons_of_mem _ member)⟩

theorem Along.and {as : List α} (first : Along step C s as) (second : Along step D s as) :
    Along step (fun s a => C s a ∧ D s a) s as := by
  induction as generalizing s with
  | nil => trivial
  | cons a as ih => exact ⟨⟨first.1, second.1⟩, ih first.2 second.2⟩

/-- **Invariant rule.** What the initial state satisfies and every admitted
step preserves holds after the whole run. -/
theorem run_invariant (preserved : ∀ s a, I s → C s a → I (step s a)) :
    ∀ {s : σ} {as : List α}, I s → Along step C s as → I (run step s as) := by
  intro s as initial along
  induction as generalizing s with
  | nil => exact initial
  | cons a as ih => exact ih (preserved s a initial along.1) along.2

/-- The invariant rule for a machine whose every step preserves `I`. -/
theorem run_invariant_always (preserved : ∀ s a, I s → I (step s a)) {as : List α}
    (initial : I s) : I (run step s as) := by
  induction as generalizing s with
  | nil => exact initial
  | cons a as ih => exact ih (preserved s a initial)

/-- The state before any split point of a run satisfies the invariant, and the
action taken there meets the condition. -/
theorem Along.at_split {pre post : List α} {a : α}
    (along : Along step C s (pre ++ a :: post)) : C (run step s pre) a := by
  rw [along_append] at along
  exact along.2.1

theorem Along.left {pre post : List α} (along : Along step C s (pre ++ post)) :
    Along step C s pre :=
  ((along_append step C s pre post).mp along).1

/-- A condition holds along a run exactly when it holds at every split point. -/
theorem along_iff_split {as : List α} :
    Along step C s as ↔
      ∀ pre a post, as = pre ++ a :: post → C (run step s pre) a := by
  constructor
  · rintro along pre a post rfl
    exact along.at_split
  · intro h
    induction as generalizing s with
    | nil => trivial
    | cons a as ih =>
        refine ⟨h [] a as rfl, ih ?_⟩
        rintro pre b post rfl
        exact h (a :: pre) b post rfl

/-- A relation between a state and its successor that composes also relates
the two ends of every run. -/
theorem run_related {R : σ → σ → Prop} (refl : ∀ s, R s s)
    (trans : ∀ {a b c}, R a b → R b c → R a c) (preserved : ∀ s a, R s (step s a))
    (s : σ) (as : List α) : R s (run step s as) := by
  induction as generalizing s with
  | nil => exact refl s
  | cons a as ih => exact trans (preserved s a) (ih (step s a))

/-- **Exact condition rule.** Suppose that, from a state satisfying the
invariant, a step is safe exactly when it meets `C`, and that a step that meets
`C` preserves the invariant. Then a run is safe throughout exactly when it
meets `C` throughout. -/
theorem along_iff_of_invariant
    (exact_step : ∀ s a, I s → (D s a ↔ C s a))
    (preserved : ∀ s a, I s → C s a → I (step s a)) {as : List α} (initial : I s) :
    Along step D s as ↔ Along step C s as := by
  induction as generalizing s with
  | nil => exact Iff.rfl
  | cons a as ih =>
      simp only [along_cons]
      constructor
      · rintro ⟨safe, rest⟩
        have holds := (exact_step s a initial).mp safe
        exact ⟨holds, (ih (preserved s a initial holds)).mp rest⟩
      · rintro ⟨holds, rest⟩
        exact ⟨(exact_step s a initial).mpr holds, (ih (preserved s a initial holds)).mpr rest⟩

/-- **Cumulative property rule.** When, under an invariant, one step keeps a
property exactly if it is taken under `C`, a whole run keeps it exactly if every
step is. -/
theorem run_iff_along_of_invariant {P : σ → Prop}
    (exact_step : ∀ s a, I s → (P (step s a) ↔ P s ∧ C s a))
    (preserved : ∀ s a, I s → I (step s a)) {s : σ} (initial : I s) (as : List α) :
    P (run step s as) ↔ P s ∧ Along step C s as := by
  induction as generalizing s with
  | nil => simp
  | cons a as ih =>
      rw [run_cons, ih (preserved s a initial), exact_step s a initial, along_cons, and_assoc]

theorem run_iff_along {P : σ → Prop} (exact_step : ∀ s a, P (step s a) ↔ P s ∧ C s a)
    (s : σ) (as : List α) : P (run step s as) ↔ P s ∧ Along step C s as :=
  run_iff_along_of_invariant (I := fun _ => True) (fun s a _ => exact_step s a)
    (fun _ _ _ => trivial) trivial as

/-- **Last mark rule.** A mark that some steps set, some steps clear and the others
leave as it is stands after a run exactly if it stood before and nothing cleared it,
or a step set it and no step after that one cleared it. -/
theorem run_marked_iff (M : σ → Prop) {Sets Clears : σ → α → Prop}
    (exact_step : ∀ s a, I s → (M (step s a) ↔ Sets s a ∨ (M s ∧ ¬Clears s a)))
    (preserved : ∀ s a, I s → I (step s a)) (initial : I s) (as : List α) :
    M (run step s as) ↔
      (M s ∧ Along step (fun s a => ¬Clears s a) s as) ∨
        ∃ before a after, as = before ++ a :: after ∧ Sets (run step s before) a ∧
          Along step (fun s a => ¬Clears s a) (run step s (before ++ [a])) after := by
  induction as using List.reverseRecOn with
  | nil => simp
  | append_singleton as last ih =>
      have holds : I (run step s as) := run_invariant_always preserved initial
      rw [run_snoc, exact_step _ last holds, ih, along_snoc]
      constructor
      · rintro (set | ⟨⟨marked, along⟩ | ⟨before, a, after, rfl, set, along⟩, kept⟩)
        · exact Or.inr ⟨as, last, [], rfl, set, trivial⟩
        · exact Or.inl ⟨marked, along, kept⟩
        · refine Or.inr ⟨before, a, after ++ [last], by simp, set, ?_⟩
          rw [along_snoc, ← run_append]
          exact ⟨along, by simpa using kept⟩
      · rintro (⟨marked, along, kept⟩ | ⟨before, a, after, split, set, along⟩)
        · exact Or.inr ⟨Or.inl ⟨marked, along⟩, kept⟩
        · -- The step that set the mark is the last one, or came before it.
          rcases List.eq_nil_or_concat after with rfl | ⟨between, b, rfl⟩
          · obtain ⟨rfl, same⟩ := List.append_inj' split rfl
            obtain rfl : last = a := by simpa using same
            exact Or.inl set
          · have rest : as ++ [last] = (before ++ a :: between) ++ [b] := by simp [split]
            obtain ⟨rfl, same⟩ := List.append_inj' rest rfl
            obtain rfl : last = b := by simpa using same
            rw [List.concat_eq_append, along_snoc, ← run_append] at along
            refine Or.inr ⟨Or.inr ⟨before, a, between, rfl, set, along.1⟩, ?_⟩
            simpa using along.2

end ImposbroSearch.Foundation
