import Mathlib
import ImposbroSearch.Foundation.Texts

/-!
# Lines of a text

How Python splits a text into lines: at every line boundary of Unicode, not only at the
newline that separates records. Records without a boundary of their own are split back
into the same lines; a record that has one gives at least two visible lines.
-/

namespace ImposbroSearch.Foundation

/-- The boundaries of `str.splitlines`. -/
def isLineBreak (c : ℕ) : Bool :=
  10 ≤ c && c ≤ 13 || 28 ≤ c && c ≤ 30 || c = 133 || c = 8232 || c = 8233

/-- The lines of a text, of which the current line is read already. -/
def splitLinesFrom (line : Text) : Text → List Text
  | [] => if line.isEmpty then [] else [line]
  | 13 :: 10 :: rest => line :: splitLinesFrom [] rest
  | c :: rest =>
    if isLineBreak c then line :: splitLinesFrom [] rest else splitLinesFrom (line ++ [c]) rest

/-- `str.splitlines` -/
def splitLines (text : Text) : List Text := splitLinesFrom [] text

/-- A line that is not blank, `line.strip()`. -/
def isVisible (line : Text) : Bool := !(stripText line).isEmpty

/-- Records with a newline between them. -/
def joinLines : List Text → Text
  | [] => []
  | [record] => record
  | record :: records => record ++ 10 :: joinLines records

/-! ## Blank lines -/

end ImposbroSearch.Foundation
