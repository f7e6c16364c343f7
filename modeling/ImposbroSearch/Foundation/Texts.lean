import ImposbroSearch.Foundation.Json

/-!
# Texts

Blanks around texts, as Python counts them, and texts cut at a separator.
-/

namespace ImposbroSearch.Foundation

/-- `str.isspace` -/
def isPySpace (c : ℕ) : Bool :=
  9 ≤ c && c ≤ 13 || 28 ≤ c && c ≤ 32 || c = 133 || c = 160 || c = 5760 ||
    8192 ≤ c && c ≤ 8202 || c = 8232 || c = 8233 || c = 8239 || c = 8287 || c = 12288

/-- `str.strip` -/
def stripText (text : Text) : Text :=
  ((text.dropWhile isPySpace).reverse.dropWhile isPySpace).reverse

theorem dropWhile_isPySpace {text : Text} (solid : ∀ c ∈ text, isPySpace c = false) :
    text.dropWhile isPySpace = text := by
  cases text with
  | nil => rfl
  | cons c rest => exact List.dropWhile_cons_of_neg (by simp [solid c List.mem_cons_self])

theorem stripText_solid {text : Text} (solid : ∀ c ∈ text, isPySpace c = false) :
    stripText text = text := by
  have reversed : ∀ c ∈ text.reverse, isPySpace c = false :=
    fun c member => solid c (List.mem_reverse.mp member)
  unfold stripText
  rw [dropWhile_isPySpace solid, dropWhile_isPySpace reversed, List.reverse_reverse]

/-- `path.split(".")` -/
def pathParts (path : Text) : List Text := path.splitOn 46

theorem pathParts_injective : Function.Injective pathParts := by
  intro path other same
  have joined := congrArg ([46].intercalate) same
  unfold pathParts at joined
  rwa [List.intercalate_splitOn, List.intercalate_splitOn] at joined

theorem pathParts_ne_nil (path : Text) : pathParts path ≠ [] :=
  List.splitOn_ne_nil 46 path

end ImposbroSearch.Foundation
