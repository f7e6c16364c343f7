import Mathlib

/-!
# Checks in sequence

A check passes or raises its error; a function made of checks passes if they all do. A
traversal by a partial function has a result if every element has one.
-/

namespace ImposbroSearch.Foundation

variable {α β ε : Type*}

/-- One check: it passes, or raises its error. -/
def check (passes : Bool) (error : ε) : Except ε PUnit :=
  if passes then .ok ⟨⟩ else .error error

@[simp] theorem check_eq_ok {passes : Bool} {error : ε} :
    check passes error = .ok ⟨⟩ ↔ passes = true := by
  cases passes with
  | false => exact iff_of_false nofun nofun
  | true => exact iff_of_true rfl rfl

/-- A sequence passes if its first part and its rest do. -/
@[simp] theorem bind_eq_ok {first : Except ε PUnit} {rest : PUnit → Except ε PUnit} :
    (first >>= rest) = .ok ⟨⟩ ↔ first = .ok ⟨⟩ ∧ rest ⟨⟩ = .ok ⟨⟩ := by
  cases first with
  | error error => exact iff_of_false nofun fun both => nomatch both.1
  | ok passed => exact (and_iff_right rfl).symm

/-- A computation with a result, in two parts. -/
theorem except_bind_eq_ok {α β : Type} {first : Except ε α} {rest : α → Except ε β}
    {result : β} :
    (first >>= rest) = .ok result ↔ ∃ value, first = .ok value ∧ rest value = .ok result := by
  cases first with
  | error error => exact iff_of_false nofun fun ⟨_, here, _⟩ => by cases here
  | ok value => exact ⟨fun done => ⟨value, rfl, done⟩, fun ⟨_, here, done⟩ => Except.ok.inj here ▸ done⟩

theorem except_map_eq_ok {γ : Type*} {first : Except ε α} {f : α → γ} {result : γ} :
    first.map f = .ok result ↔ ∃ value, first = .ok value ∧ f value = result := by
  cases first with
  | error error => exact iff_of_false nofun fun ⟨_, here, _⟩ => nomatch here
  | ok value => exact ⟨fun done => ⟨value, rfl, Except.ok.inj done⟩, fun ⟨_, here, done⟩ => by
      cases here
      exact congrArg Except.ok done⟩

/-- A check that raises its error. -/
theorem ite_error_eq_ok {refused : Prop} [Decidable refused] {error : ε} {rest : Except ε α}
    {result : α} :
    (if refused then .error error else rest) = .ok result ↔ ¬refused ∧ rest = .ok result := by
  split
  next here => exact iff_of_false nofun fun passed => passed.1 here
  next passed => exact (and_iff_right passed).symm

/-- The checks of the elements of a list. -/
@[simp] theorem forM_eq_ok {checks : α → Except ε PUnit} {items : List α} :
    items.forM checks = .ok ⟨⟩ ↔ ∀ item ∈ items, checks item = .ok ⟨⟩ := by
  induction items with
  | nil => exact iff_of_true rfl nofun
  | cons item items ih =>
      rw [List.forall_mem_cons, ← ih]
      exact bind_eq_ok

/-! ## Traversals -/

/-- The computations of the elements of a list, one by one. -/
theorem except_mapM_eq_ok {β : Type} {f : α → Except ε β} {items : List α} {results : List β} :
    items.mapM f = .ok results ↔
      List.Forall₂ (fun item result => f item = .ok result) items results := by
  induction items generalizing results with
  | nil =>
      rw [List.forall₂_nil_left_iff]
      exact ⟨fun done => (Except.ok.inj done).symm, fun none => none ▸ rfl⟩
  | cons item items ih =>
      rw [List.mapM_cons, except_bind_eq_ok, List.forall₂_cons_left_iff]
      simp only [except_bind_eq_ok, ih]
      constructor
      · rintro ⟨first, here, others, there, done⟩
        cases done
        exact ⟨first, others, here, there, rfl⟩
      · rintro ⟨first, others, here, there, rfl⟩
        exact ⟨first, here, others, there, rfl⟩

theorem mem_of_mapM {f : α → Option β} {items : List α} {results : List β}
    (all : items.mapM f = some results) {result : β} :
    result ∈ results ↔ ∃ item ∈ items, f item = some result := by
  induction items generalizing results with
  | nil =>
      obtain rfl : [] = results := Option.some.inj all
      simp
  | cons item items ih =>
      rw [List.mapM_cons] at all
      obtain ⟨first, here, rest⟩ := Option.bind_eq_some_iff.mp all
      obtain ⟨others, there, same⟩ := Option.bind_eq_some_iff.mp rest
      obtain rfl := Option.some.inj same
      simp [ih there, here, eq_comm]

theorem mapM_eq_none {f : α → Option β} {items : List α} :
    items.mapM f = none ↔ ∃ item ∈ items, f item = none := by
  induction items with
  | nil => exact iff_of_false nofun fun ⟨item, member, _⟩ => absurd member List.not_mem_nil
  | cons item items ih =>
      rw [List.mapM_cons]
      cases here : f item with
      | none => exact iff_of_true rfl ⟨item, List.mem_cons_self, here⟩
      | some first =>
          have reach : (∃ other ∈ item :: items, f other = none) ↔
              ∃ other ∈ items, f other = none := by
            simp [here]
          rw [reach, ← ih]
          cases items.mapM f with
          | none => exact iff_of_true rfl rfl
          | some others => exact iff_of_false nofun nofun

/-- What the function keeps, the traversal keeps of the whole list. -/
theorem map_of_mapM {γ : Type*} {f : α → Option β} {before : α → γ} {after : β → γ}
    {items : List α} {results : List β}
    (keeps : ∀ item result, f item = some result → after result = before item)
    (all : items.mapM f = some results) : results.map after = items.map before := by
  induction items generalizing results with
  | nil =>
      obtain rfl : [] = results := Option.some.inj all
      rfl
  | cons item items ih =>
      rw [List.mapM_cons] at all
      obtain ⟨first, here, rest⟩ := Option.bind_eq_some_iff.mp all
      obtain ⟨others, there, same⟩ := Option.bind_eq_some_iff.mp rest
      obtain rfl := Option.some.inj same
      rw [List.map_cons, List.map_cons, keeps item first here, ih there]

/-- An item is listed with its result. -/
theorem lookup_zip_of_mapM [BEq α] [LawfulBEq α] {f : α → Option β} {items : List α} {results : List β}
    (all : items.mapM f = some results) {item : α} (listed : item ∈ items) :
    (items.zip results).lookup item = f item := by
  induction items generalizing results with
  | nil => exact absurd listed List.not_mem_nil
  | cons first items ih =>
      rw [List.mapM_cons] at all
      obtain ⟨here, found, rest⟩ := Option.bind_eq_some_iff.mp all
      obtain ⟨others, there, same⟩ := Option.bind_eq_some_iff.mp rest
      obtain rfl := Option.some.inj same
      rw [List.zip_cons_cons, List.lookup_cons]
      by_cases first_item : item = first
      · rw [beq_iff_eq.mpr first_item, first_item, found]
      · rw [beq_eq_false_iff_ne.mpr first_item]
        exact ih there ((List.mem_cons.mp listed).resolve_left first_item)

end ImposbroSearch.Foundation
