import Mathlib

/-!
# Pages of a sorted list behind a cursor

A reader that remembers only the key of the last item it has seen asks for the
next items behind that key, a bounded number at a time. Nothing is skipped: an
item behind the cursor is on the page, or behind everything on the page.
-/

namespace ImposbroSearch.Foundation

variable {α κ : Type*} [LinearOrder κ] {key : α → κ} {cursor : κ} {limit : ℕ} {items : List α}

/-- The items behind the cursor. -/
def behind (key : α → κ) (cursor : κ) (items : List α) : List α :=
  items.filter fun item => cursor < key item

/-- The first of the items behind the cursor. -/
def page (key : α → κ) (cursor : κ) (limit : ℕ) (items : List α) : List α :=
  (behind key cursor items).take limit

/-- The key of the last item of a page, or `otherwise` for an empty one. -/
def lastKey (key : α → κ) (otherwise : κ) (items : List α) : κ :=
  (items.getLast?.map key).getD otherwise

theorem mem_behind {item : α} :
    item ∈ behind key cursor items ↔ item ∈ items ∧ cursor < key item := by
  simp [behind]

theorem mem_of_mem_page {item : α} (member : item ∈ page key cursor limit items) :
    item ∈ items ∧ cursor < key item :=
  mem_behind.mp (List.mem_of_mem_take member)

/-- **Nothing is skipped.** -/
theorem mem_page_or_after (sorted : items.Pairwise fun first second => key first < key second)
    {item : α} (member : item ∈ items) (after : cursor < key item) :
    item ∈ page key cursor limit items ∨
      ∀ other ∈ page key cursor limit items, key other < key item := by
  have pending : item ∈ behind key cursor items := mem_behind.mpr ⟨member, after⟩
  have order : (behind key cursor items).Pairwise fun first second => key first < key second :=
    sorted.filter _
  rw [← List.take_append_drop limit (behind key cursor items)] at pending order
  rcases List.mem_append.mp pending with here | later
  · exact Or.inl here
  · exact Or.inr fun other paged => (List.pairwise_append.mp order).2.2 other paged item later

omit [LinearOrder κ] in
theorem lastKey_of_ne_nil (key : α → κ) (otherwise : κ) (ne : items ≠ []) :
    ∃ item ∈ items, lastKey key otherwise items = key item := by
  refine ⟨items.getLast ne, List.getLast_mem ne, ?_⟩
  simp [lastKey, List.getLast?_eq_some_getLast ne]

omit [LinearOrder κ] in
@[simp] theorem lastKey_nil {otherwise : κ} : lastKey key otherwise ([] : List α) = otherwise := rfl

omit [LinearOrder κ] in
theorem lastKey_congr (key : α → κ) (first second : κ) (ne : items ≠ []) :
    lastKey key first items = lastKey key second items := by
  simp [lastKey, List.getLast?_eq_some_getLast ne]

/-- An item between the cursor and the last key of the page is on the page. -/
theorem mem_page_of_le_lastKey
    (sorted : items.Pairwise fun first second => key first < key second) {item : α}
    (member : item ∈ items) (after : cursor < key item)
    (within : key item ≤ lastKey key cursor (page key cursor limit items)) :
    item ∈ page key cursor limit items := by
  have split : item ∈ page key cursor limit items ∨
      ∀ other ∈ page key cursor limit items, key other < key item :=
    mem_page_or_after sorted member after
  rcases split with here | later
  · exact here
  · by_cases empty : page key cursor limit items = []
    · rw [empty, lastKey_nil] at within
      exact absurd within (not_le_of_gt after)
    · obtain ⟨last, paged, same⟩ := lastKey_of_ne_nil key cursor empty
      rw [same] at within
      exact absurd (later last paged) (not_lt_of_ge within)

/-- A page without items leaves nothing behind the cursor. -/
theorem behind_eq_nil_of_page (positive : 0 < limit) (empty : page key cursor limit items = []) :
    behind key cursor items = [] := by
  rcases List.take_eq_nil_iff.mp empty with none | done
  · omega
  · exact done

/-- Behind the last item of a front there is the rest. -/
theorem behind_getLast {front back : List α}
    (sorted : (front ++ back).Pairwise fun first second => key first < key second)
    (ne : front ≠ []) : behind key (key (front.getLast ne)) (front ++ back) = back := by
  obtain ⟨within, -, beyond⟩ := List.pairwise_append.mp sorted
  have passed : front.filter (fun item => key (front.getLast ne) < key item) = [] := by
    rw [List.filter_eq_nil_iff]
    intro item member
    rw [decide_eq_true_eq, not_lt]
    rw [← List.dropLast_append_getLast ne] at member within
    rcases List.mem_append.mp member with earlier | here
    · exact le_of_lt ((List.pairwise_append.mp within).2.2 _ earlier _ List.mem_cons_self)
    · rw [List.mem_singleton.mp here]
  have later : back.filter (fun item => key (front.getLast ne) < key item) = back := by
    rw [List.filter_eq_self]
    intro item member
    exact decide_eq_true (beyond _ (List.getLast_mem ne) _ member)
  unfold behind
  rw [List.filter_append, passed, later, List.nil_append]

/-- A cursor further on sees only what the one before it saw. -/
theorem behind_behind {further : κ} (le : cursor ≤ further) :
    behind key further (behind key cursor items) = behind key further items := by
  unfold behind
  rw [List.filter_filter]
  refine List.filter_congr fun item _ => ?_
  have implied : further < key item → cursor < key item := lt_of_le_of_lt le
  simpa using implied

/-- **The next page begins where this one ends.** -/
theorem behind_lastKey (sorted : items.Pairwise fun first second => key first < key second) :
    behind key (lastKey key cursor (page key cursor limit items)) items =
      (behind key cursor items).drop limit := by
  have order : (behind key cursor items).Pairwise fun first second => key first < key second :=
    sorted.filter _
  have split : page key cursor limit items ++ (behind key cursor items).drop limit =
      behind key cursor items := List.take_append_drop limit _
  by_cases empty : page key cursor limit items = []
  · rw [empty, List.nil_append] at split
    rw [empty, lastKey_nil]
    exact split.symm
  · have last : lastKey key cursor (page key cursor limit items) =
        key ((page key cursor limit items).getLast empty) := by
      simp [lastKey, List.getLast?_eq_some_getLast empty]
    have after := (mem_of_mem_page (List.getLast_mem empty)).2
    rw [← split] at order
    rw [last, ← behind_behind (le_of_lt after), ← behind_getLast order empty, split]

/-- A page as long as what is behind the cursor holds all of it. -/
theorem mem_page_of_complete
    (complete : (page key cursor limit items).length = (behind key cursor items).length)
    {item : α} (member : item ∈ items) (after : cursor < key item) :
    item ∈ page key cursor limit items := by
  have whole : page key cursor limit items = behind key cursor items :=
    (List.take_prefix limit _).eq_of_length complete
  rw [whole]
  exact mem_behind.mpr ⟨member, after⟩

end ImposbroSearch.Foundation
