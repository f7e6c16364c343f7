import Mathlib.Data.List.Basic
import Mathlib.Tactic.Common

/-!
# Patterns

The part of Python's regular expressions that is made of literals, character classes,
repeated classes, anchors, and negative lookahead. A pattern maps a position of a text
to the positions where a match of it can end; `re.match` asks whether there is one from
the beginning of the text.
-/

namespace ImposbroSearch.Foundation

inductive Pattern where
  | empty
  | start
  | finish
  | one (allowed : Char → Bool)
  | many (allowed : Char → Bool)
  | seq (first second : Pattern)
  | notAhead (pattern : Pattern)

/-- A position: whether it is the first one, and what lies behind it. -/
abbrev Position := Bool × List Char

namespace Pattern

/-- The positions that the repeated class reaches. -/
def reach (allowed : Char → Bool) (atStart : Bool) : List Char → List Position
  | [] => [(atStart, [])]
  | c :: text =>
    (atStart, c :: text) :: if allowed c then reach allowed false text else []

/-- Where a match of the pattern can end. `$` also matches before a final newline. -/
def ends : Pattern → Position → List Position
  | .empty, position => [position]
  | .start, position => if position.1 then [position] else []
  | .finish, position => if position.2 = [] ∨ position.2 = ['\n'] then [position] else []
  | .one _, (_, []) => []
  | .one allowed, (_, c :: text) => if allowed c then [(false, text)] else []
  | .many allowed, (atStart, text) => reach allowed atStart text
  | .seq first second, position => (ends first position).flatMap (ends second)
  | .notAhead pattern, position => if ends pattern position = [] then [position] else []

/-- `re.match` -/
def matchesStart (pattern : Pattern) (text : String) : Bool :=
  ends pattern (true, text.toList) ≠ []

/-- `re.fullmatch` -/
def matchesWhole (pattern : Pattern) (text : String) : Bool :=
  (ends pattern (true, text.toList)).any fun position => position.2 = []

/-- The text itself, which is what `re.escape` makes of it. -/
def literal : List Char → Pattern
  | [] => .empty
  | c :: text => .seq (.one fun other => other = c) (literal text)

@[simp] theorem ends_seq (first second : Pattern) (position : Position) :
    ends (.seq first second) position = (ends first position).flatMap (ends second) := rfl

theorem reach_ne_nil (allowed : Char → Bool) (atStart : Bool) (text : List Char) :
    reach allowed atStart text ≠ [] := by
  cases text with
  | nil => exact List.cons_ne_nil _ _
  | cons c text => exact List.cons_ne_nil _ _

/-- A repeated class reaches every position up to which the text is in the class. -/
theorem mem_reach {allowed : Char → Bool} {text rest : List Char} (atStart : Bool) :
    (∃ first, (first, rest) ∈ reach allowed atStart text) ↔
      ∃ run, run.all allowed = true ∧ text = run ++ rest := by
  induction text generalizing atStart with
  | nil =>
      constructor
      · rintro ⟨first, there⟩
        obtain ⟨-, rfl⟩ := Prod.mk.inj (List.mem_singleton.mp there)
        exact ⟨[], rfl, rfl⟩
      · rintro ⟨run, -, joined⟩
        obtain ⟨-, rfl⟩ := List.append_eq_nil_iff.mp joined.symm
        exact ⟨atStart, List.mem_singleton_self _⟩
  | cons c text ih =>
      constructor
      · rintro ⟨first, there⟩
        rcases List.mem_cons.mp there with here | later
        · obtain ⟨-, rfl⟩ := Prod.mk.inj here
          exact ⟨[], rfl, rfl⟩
        · split_ifs at later with inClass
          · obtain ⟨run, within, rfl⟩ := (ih false).mp ⟨first, later⟩
            exact ⟨c :: run, by rw [List.all_cons, inClass, within]; rfl, rfl⟩
          · exact absurd later List.not_mem_nil
      · rintro ⟨run, within, joined⟩
        cases run with
        | nil =>
            rw [List.nil_append] at joined
            subst joined
            exact ⟨atStart, List.mem_cons_self⟩
        | cons d run =>
            obtain ⟨rfl, rfl⟩ := List.cons.inj joined
            obtain ⟨inClass, within⟩ := Bool.and_eq_true_iff.mp within
            obtain ⟨first, later⟩ := (ih false).mpr ⟨run, within, rfl⟩
            exact ⟨first, List.mem_cons_of_mem _ (by rwa [if_pos inClass])⟩

/-- **A literal** is matched by a text that begins with it, and then ends behind it. -/
theorem ends_literal (text : List Char) (atStart : Bool) (rest : List Char) :
    ends (literal text) (atStart, text ++ rest) = [(atStart && text.isEmpty, rest)] := by
  induction text generalizing atStart with
  | nil => simp [literal, ends]
  | cons c text ih =>
      have here : ends (.one fun other => other = c) (atStart, c :: (text ++ rest)) =
          [(false, text ++ rest)] := by
        simp [ends]
      rw [List.cons_append, literal, ends_seq, here, List.flatMap_singleton, ih]
      simp

/-- A literal is not matched by another text. -/
theorem ends_literal_eq_nil {text other : List Char} (atStart : Bool) (differs : ¬text <+: other) :
    ends (literal text) (atStart, other) = [] := by
  induction text generalizing atStart other with
  | nil => exact absurd List.nil_prefix differs
  | cons c text ih =>
      rw [literal, ends_seq]
      cases other with
      | nil => rfl
      | cons d other =>
          by_cases same : d = c
          · subst same
            have here : ends (.one fun other => other = d) (atStart, d :: other) =
                [(false, other)] := by
              simp [ends]
            rw [here, List.flatMap_singleton]
            exact ih false fun before => differs (List.cons_prefix_cons.mpr ⟨rfl, before⟩)
          · simp [ends, same]

/-- An anchored repeated class fully matches the nonempty texts over the class. -/
theorem matchesWhole_class (allowed : Char → Bool) (text : String) :
    matchesWhole (.seq .start (.seq (.one allowed) (.seq (.many allowed) .finish))) text = true ↔
      text ≠ "" ∧ text.toList.all allowed = true := by
  unfold matchesWhole
  cases characters : text.toList with
  | nil =>
      rw [String.toList_eq_nil_iff] at characters
      simp [characters, ends]
  | cons c rest =>
      have nonempty : text ≠ "" := by
        rintro rfl
        exact List.cons_ne_nil _ _ characters.symm
      have begun : ends (.seq .start (.seq (.one allowed) (.seq (.many allowed) .finish)))
          (true, c :: rest) =
            if allowed c then (reach allowed false rest).flatMap (ends .finish) else [] := by
        by_cases inClass : allowed c = true
        · simp [ends, inClass]
        · simp [ends, inClass]
      rw [begun, List.all_cons]
      by_cases inClass : allowed c = true
      · rw [if_pos inClass, inClass, Bool.true_and, List.any_eq_true]
        -- `$` alone would also stop before a final newline; the whole text has to be matched
        have atEnd : ∀ position ∈ (reach allowed false rest).flatMap (ends .finish),
            position ∈ reach allowed false rest := by
          intro position there
          obtain ⟨before, reached, finished⟩ := List.mem_flatMap.mp there
          unfold ends at finished
          split_ifs at finished with last
          · rwa [List.mem_singleton.mp finished]
          · exact absurd finished List.not_mem_nil
        constructor
        · rintro ⟨⟨first, left⟩, there, nothing⟩
          simp only [decide_eq_true_eq] at nothing
          subst nothing
          obtain ⟨run, within, rfl⟩ := (mem_reach false).mp ⟨first, atEnd _ there⟩
          exact ⟨nonempty, by rwa [List.append_nil]⟩
        · rintro ⟨-, within⟩
          obtain ⟨first, reached⟩ := (@mem_reach allowed rest [] false).mpr
            ⟨rest, within, (List.append_nil _).symm⟩
          refine ⟨(first, []), List.mem_flatMap.mpr ⟨_, reached, ?_⟩, decide_eq_true rfl⟩
          simp [ends]
      · rw [if_neg inClass, Bool.not_eq_true _ |>.mp inClass]
        simp

/-- A literal up to the end of the text, or up to a final newline. -/
theorem ends_literal_finish (text other : List Char) (atStart : Bool) :
    ends (.seq (literal text) .finish) (atStart, other) ≠ [] ↔
      other = text ∨ other = text ++ ['\n'] := by
  rw [ends_seq]
  by_cases before : text <+: other
  · obtain ⟨rest, rfl⟩ := before
    rw [ends_literal, List.flatMap_singleton]
    unfold ends
    simp only
    split_ifs with last
    · refine iff_of_true (List.cons_ne_nil _ _) ?_
      rcases last with rfl | rfl
      · exact Or.inl (List.append_nil _)
      · exact Or.inr rfl
    · refine iff_of_false (not_not.mpr rfl) ?_
      rintro (same | same)
      · exact last (Or.inl (List.append_right_eq_self.mp same))
      · exact last (Or.inr (List.append_cancel_left same))
  · rw [ends_literal_eq_nil atStart before]
    refine iff_of_false (not_not.mpr rfl) ?_
    rintro (rfl | rfl)
    · exact before List.prefix_rfl
    · exact before (List.prefix_append _ _)

end Pattern

end ImposbroSearch.Foundation
