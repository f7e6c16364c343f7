import Mathlib
import ImposbroSearch.Foundation.JsonReading

/-!
# Characters of JSON texts

Which characters a printed value consists of: no control characters, and beyond ASCII,
where nothing is escaped, exactly the characters of its strings. And what the reader never
returns: an integer with too many digits.
-/

namespace ImposbroSearch.Foundation

/-! ## Strings -/

/-- The characters with a letter for an escape, and the letters. -/
theorem escapeLetter_ascii {c letter : ℕ} (escaped : escapeLetter c = some letter) :
    c < 127 ∧ 32 ≤ letter ∧ letter < 127 := by
  unfold escapeLetter at escaped
  split_ifs at escaped <;> cases escaped <;> omega

theorem hexDigit_bounds {n : ℕ} (small : n < 16) : 48 ≤ hexDigit n ∧ hexDigit n < 127 := by
  unfold hexDigit
  split <;> omega

theorem mem_unicodeEscape {c n : ℕ} (member : c ∈ unicodeEscape n) : 32 ≤ c ∧ c < 127 := by
  have hex : ∀ m, 48 ≤ hexDigit (m % 16) ∧ hexDigit (m % 16) < 127 :=
    fun m => hexDigit_bounds (Nat.mod_lt m (by decide))
  unfold unicodeEscape at member
  simp only [List.mem_cons, List.not_mem_nil, or_false] at member
  rcases member with rfl | rfl | rfl | rfl | rfl | rfl
  · decide
  · decide
  all_goals exact ⟨le_trans (by decide) (hex _).1, (hex _).2⟩

theorem mem_escapeChar {ensureAscii : Bool} {c d : ℕ} (member : c ∈ escapeChar ensureAscii d) :
    32 ≤ c ∧ (127 ≤ c → c = d) := by
  unfold escapeChar at member
  cases escaped : escapeLetter d with
  | some letter =>
      rw [escaped] at member
      have bounds := (escapeLetter_ascii escaped).2
      simp only [List.mem_cons, List.not_mem_nil, or_false] at member
      rcases member with rfl | rfl
      · exact ⟨by decide, fun beyond => absurd beyond (by decide)⟩
      · exact ⟨bounds.1, fun beyond => absurd beyond (not_le.mpr bounds.2)⟩
  | none =>
      rw [escaped] at member
      have ascii : ∀ n, c ∈ unicodeEscape n → 32 ≤ c ∧ (127 ≤ c → c = d) := fun n within =>
        ⟨(mem_unicodeEscape within).1, fun beyond =>
          absurd beyond (not_le.mpr (mem_unicodeEscape within).2)⟩
      simp only at member
      split_ifs at member with control plain basic
      · exact ascii _ member
      · obtain rfl := List.mem_singleton.mp member
        exact ⟨not_lt.mp control, fun _ => rfl⟩
      · exact ascii _ member
      · rcases List.mem_append.mp member with high | low
        · exact ascii _ high
        · exact ascii _ low

theorem mem_stringText {ensureAscii : Bool} {text : Text} {c : ℕ}
    (member : c ∈ stringText ensureAscii text) : 32 ≤ c ∧ (127 ≤ c → c ∈ text) := by
  unfold stringText at member
  rcases List.mem_cons.mp member with rfl | rest
  · exact ⟨by decide, fun beyond => absurd beyond (by decide)⟩
  rcases List.mem_append.mp rest with inside | quote
  · obtain ⟨d, within, printed⟩ := List.mem_flatMap.mp inside
    refine ⟨(mem_escapeChar printed).1, fun beyond => ?_⟩
    rw [(mem_escapeChar printed).2 beyond]
    exact within
  · obtain rfl := List.mem_singleton.mp quote
    exact ⟨by decide, fun beyond => absurd beyond (by decide)⟩

/-- Without escapes, what is beyond ASCII is shown. -/
theorem stringText_mem {text : Text} {c : ℕ} (beyond : 127 ≤ c) (member : c ∈ text) :
    c ∈ stringText false text := by
  have unescaped : escapeLetter c = none := by
    cases escaped : escapeLetter c with
    | none => rfl
    | some letter => exact absurd (escapeLetter_ascii escaped).1 (not_lt.mpr beyond)
  have shown : escapeChar false c = [c] := by
    unfold escapeChar
    rw [unescaped]
    simp only
    rw [if_neg (by omega), if_pos (Or.inr trivial)]
  refine List.mem_cons_of_mem _ (List.mem_append_left _ (List.mem_flatMap.mpr ⟨c, member, ?_⟩))
  rw [shown]
  exact List.mem_singleton_self c

namespace NumberLiteral

theorem mem_digits {digits : Text} (row : Digits digits) {c : ℕ} (member : c ∈ digits) :
    32 ≤ c ∧ c < 127 := by
  have digit := List.all_eq_true.mp row.2 c member
  unfold isDigit at digit
  simp only [Bool.and_eq_true, decide_eq_true_eq] at digit
  omega

theorem mem_text {literal : NumberLiteral} (formed : literal.WellFormed) {c : ℕ}
    (member : c ∈ literal.text) : 32 ≤ c ∧ c < 127 := by
  unfold text at member
  rcases List.mem_append.mp member with front | back
  · rcases List.mem_append.mp front with sign | whole
    · split at sign
      · obtain rfl := List.mem_singleton.mp sign
        decide
      · exact absurd sign List.not_mem_nil
    · exact mem_digits formed.whole whole
  rcases List.mem_append.mp back with fraction | exponent
  · cases present : literal.fraction with
    | none =>
        rw [present] at fraction
        exact absurd fraction List.not_mem_nil
    | some digits =>
        rw [present] at fraction
        rcases List.mem_cons.mp fraction with rfl | digit
        · decide
        · exact mem_digits (formed.fraction digits present) digit
  · cases present : literal.exponent with
    | none =>
        rw [present] at exponent
        exact absurd exponent List.not_mem_nil
    | some e =>
        rw [present] at exponent
        rcases List.mem_cons.mp exponent with rfl | rest
        · decide
        rcases List.mem_cons.mp rest with rfl | digit
        · split <;> decide
        · exact mem_digits (formed.exponent e present) digit

end NumberLiteral

/-! ## Values -/

namespace Json

variable {F : Type}

/-- A character of a text that shows these parts. -/
def Shown (c : ℕ) (parts : List (JsonPart F)) : Prop :=
  32 ≤ c ∧ (127 ≤ c → ∃ text, .text text ∈ parts ∧ c ∈ text)

theorem Shown.mono {c : ℕ} {parts others : List (JsonPart F)} (shown : Shown c parts)
    (included : parts ⊆ others) : Shown c others := by
  refine ⟨shown.1, fun beyond => ?_⟩
  obtain ⟨text, part, member⟩ := shown.2 beyond
  exact ⟨text, included part, member⟩

theorem shown_of_ascii {c : ℕ} (bounds : 32 ≤ c ∧ c < 127) (parts : List (JsonPart F)) :
    Shown c parts := ⟨bounds.1, fun beyond => absurd bounds.2 (not_lt.mpr beyond)⟩

theorem shown_of_word {c : ℕ} (word : Text) (ascii : ∀ c ∈ word, 32 ≤ c ∧ c < 127)
    (member : c ∈ word) (parts : List (JsonPart F)) : Shown c parts :=
  shown_of_ascii (ascii c member) parts

variable [PyFloat F] (style : JsonStyle)

theorem mem_itemSeparator {c : ℕ} (member : c ∈ style.itemSeparator) : 32 ≤ c ∧ c < 127 := by
  rw [style.itemSeparator_eq, JsonStyle.blank] at member
  split at member <;> simp at member <;> omega

theorem mem_keySeparator {c : ℕ} (member : c ∈ style.keySeparator) : 32 ≤ c ∧ c < 127 := by
  rw [style.keySeparator_eq, JsonStyle.blank] at member
  split at member <;> simp at member <;> omega

/-- The characters of a key and its value. -/
theorem shown_field {c : ℕ} {key : Text} {value : Json F} {fields : List (Text × Json F)}
    {rest : Text} (first : c ∈ print style value → Shown c value.parts)
    (others : c ∈ rest → Shown c (partsOfFields fields))
    (member : c ∈ stringText style.ensureAscii key ++
      (style.keySeparator ++ (print style value ++ rest))) :
    Shown c (partsOfFields ((key, value) :: fields)) := by
  rcases List.mem_append.mp member with quoted | behind
  · refine ⟨(mem_stringText quoted).1, fun beyond => ?_⟩
    exact ⟨key, List.mem_cons_self, (mem_stringText quoted).2 beyond⟩
  rcases List.mem_append.mp behind with colon | behind
  · exact shown_of_ascii (mem_keySeparator style colon) _
  rcases List.mem_append.mp behind with inside | after
  · exact (first inside).mono fun part within =>
      List.mem_cons_of_mem _ (List.mem_append_left _ within)
  · exact (others after).mono fun part within =>
      List.mem_cons_of_mem _ (List.mem_append_right _ within)

mutual

/-- **The characters of a printed value.** -/
theorem mem_print {c : ℕ} : ∀ v : Json F, c ∈ print style v → Shown c v.parts
  | .null, member => by
      rw [print] at member
      exact shown_of_word (chars "null") (by decide) member _
  | .bool true, member => by
      rw [print] at member
      exact shown_of_word (chars "true") (by decide) member _
  | .bool false, member => by
      rw [print] at member
      exact shown_of_word (chars "false") (by decide) member _
  | .int n, member => by
      rw [print] at member
      exact shown_of_ascii (NumberLiteral.mem_text (intLiteral_wellFormed n) member) _
  | .float x, member => by
      rw [print] at member
      exact shown_of_ascii
        (NumberLiteral.mem_text (floatLiteral_wellFormed (PyFloat.canonical x)) member) _
  | .nan, member => by
      rw [print] at member
      exact shown_of_word (chars "NaN") (by decide) member _
  | .infinity false, member => by
      rw [print] at member
      exact shown_of_word (chars "Infinity") (by decide) member _
  | .infinity true, member => by
      rw [print] at member
      exact shown_of_word (chars "-Infinity") (by decide) member _
  | .str text, member => by
      rw [print] at member
      refine ⟨(mem_stringText member).1, fun beyond => ?_⟩
      exact ⟨text, List.mem_singleton_self _, (mem_stringText member).2 beyond⟩
  | .list [], member => by
      rw [print] at member
      exact shown_of_word [91, 93] (by decide) member _
  | .list (item :: items), member => by
      rw [print] at member
      rcases List.mem_cons.mp member with rfl | inside
      · exact shown_of_ascii (by decide) _
      rcases List.mem_append.mp inside with first | behind
      · exact (mem_print item first).mono (List.subset_append_left _ _)
      · exact (mem_printItems items behind).mono (List.subset_append_right _ _)
  | .object [], member => by
      rw [print] at member
      exact shown_of_word [123, 125] (by decide) member _
  | .object ((key, value) :: fields), member => by
      rw [print] at member
      rcases List.mem_cons.mp member with rfl | inside
      · exact shown_of_ascii (by decide) _
      refine Shown.mono ?_ (List.subset_cons_self _ _)
      exact shown_field style (mem_print value) (mem_printFields fields) inside

theorem mem_printItems {c : ℕ} : ∀ items : List (Json F), c ∈ printItems style items →
    Shown c (partsOfItems items)
  | [], member => by
      rw [printItems] at member
      exact shown_of_word [93] (by decide) member _
  | item :: items, member => by
      rw [printItems] at member
      rcases List.mem_append.mp member with comma | behind
      · exact shown_of_ascii (mem_itemSeparator style comma) _
      rcases List.mem_append.mp behind with first | behind
      · exact (mem_print item first).mono (List.subset_append_left _ _)
      · exact (mem_printItems items behind).mono (List.subset_append_right _ _)

theorem mem_printFields {c : ℕ} : ∀ fields : List (Text × Json F), c ∈ printFields style fields →
    Shown c (partsOfFields fields)
  | [], member => by
      rw [printFields] at member
      exact shown_of_word [125] (by decide) member _
  | (key, value) :: fields, member => by
      rw [printFields] at member
      rcases List.mem_append.mp member with comma | behind
      · exact shown_of_ascii (mem_itemSeparator style comma) _
      · exact shown_field style (mem_print value) (mem_printFields fields) behind

end

section Plain

variable {style} {text : Text} {c : ℕ}

/-- The characters of a string, of a key or of the value behind it. -/
theorem field_shows (plain : style.ensureAscii = false) (beyond : 127 ≤ c) (member : c ∈ text)
    {key : Text} {value : Json F} {fields : List (Text × Json F)} {rest : Text}
    (first : .text text ∈ value.parts → c ∈ print style value)
    (others : .text text ∈ partsOfFields fields → c ∈ rest)
    (part : .text text ∈ partsOfFields ((key, value) :: fields)) :
    c ∈ stringText style.ensureAscii key ++ (style.keySeparator ++ (print style value ++ rest)) := by
  rw [partsOfFields, List.mem_cons, List.mem_append] at part
  rcases part with own | inside | behind
  · obtain rfl : text = key := by injection own
    rw [plain]
    exact List.mem_append_left _ (stringText_mem beyond member)
  · refine List.mem_append_right _ (List.mem_append_right _ (List.mem_append_left _ ?_))
    exact first inside
  · refine List.mem_append_right _ (List.mem_append_right _ (List.mem_append_right _ ?_))
    exact others behind

mutual

/-- **A printed value shows its strings** beyond ASCII. -/
theorem print_shows (plain : style.ensureAscii = false) (beyond : 127 ≤ c) (member : c ∈ text) :
    ∀ v : Json F, .text text ∈ v.parts → c ∈ print style v
  | .null, part => absurd part List.not_mem_nil
  | .bool _, part => absurd part List.not_mem_nil
  | .int _, part => nomatch List.mem_singleton.mp part
  | .float _, part => nomatch List.mem_singleton.mp part
  | .nan, part => nomatch List.mem_singleton.mp part
  | .infinity _, part => nomatch List.mem_singleton.mp part
  | .str own, part => by
      obtain rfl : text = own := by injection List.mem_singleton.mp part
      rw [print, plain]
      exact stringText_mem beyond member
  | .list [], part => absurd part List.not_mem_nil
  | .list (item :: items), part => by
      rw [print]
      rcases List.mem_append.mp part with first | behind
      · exact List.mem_cons_of_mem _ (List.mem_append_left _ (print_shows plain beyond member item first))
      · exact List.mem_cons_of_mem _ (List.mem_append_right _ (printItems_shows plain beyond member items behind))
  | .object [], part => nomatch List.mem_singleton.mp part
  | .object ((key, value) :: fields), part => by
      rw [print]
      have inside : .text text ∈ partsOfFields ((key, value) :: fields) := by
        rcases List.mem_cons.mp part with own | inside
        · exact nomatch own
        · exact inside
      exact List.mem_cons_of_mem _
        (field_shows plain beyond member (print_shows plain beyond member value) (printFields_shows plain beyond member fields) inside)

theorem printItems_shows (plain : style.ensureAscii = false) (beyond : 127 ≤ c) (member : c ∈ text) :
    ∀ items : List (Json F), .text text ∈ partsOfItems items →
    c ∈ printItems style items
  | [], part => absurd part List.not_mem_nil
  | item :: items, part => by
      rw [printItems]
      rcases List.mem_append.mp part with first | behind
      · exact List.mem_append_right _ (List.mem_append_left _ (print_shows plain beyond member item first))
      · exact List.mem_append_right _ (List.mem_append_right _ (printItems_shows plain beyond member items behind))

theorem printFields_shows (plain : style.ensureAscii = false) (beyond : 127 ≤ c) (member : c ∈ text) :
    ∀ fields : List (Text × Json F), .text text ∈ partsOfFields fields →
    c ∈ printFields style fields
  | [], part => absurd part List.not_mem_nil
  | (key, value) :: fields, part => by
      rw [printFields]
      exact List.mem_append_right _
        (field_shows plain beyond member (print_shows plain beyond member value) (printFields_shows plain beyond member fields) part)

end

end Plain

/-! ## Numbers that are read -/

/-- No integer has more digits than the reader takes. -/
def ShortIntegers (parts : List (JsonPart F)) : Prop :=
  ∀ n, .int n ∈ parts → (natText n.natAbs).length ≤ maxStrDigits

omit [PyFloat F] in
theorem shortIntegers_iff {parts : List (JsonPart F)} : ShortIntegers parts ↔
    ∀ part ∈ parts, ∀ n, part = .int n → (natText n.natAbs).length ≤ maxStrDigits := by
  constructor
  · rintro short part member n rfl
    exact short n member
  · intro short n member
    exact short _ member n rfl

omit [PyFloat F] in
theorem shortIntegers_dicts {v : Json F} (short : ShortIntegers v.parts) :
    ShortIntegers v.dicts.parts := by
  rw [shortIntegers_iff] at short ⊢
  exact forall_parts_dicts (by simp) short

/-- **No integer that is read has too many digits.** -/
theorem read_short {constants : Bool} {text : Text} {v : Json F}
    (result : read constants text = .ok v) : ShortIntegers v.parts := by
  have rule : ReadRule (F := F) (fun _ => True)
      fun part => ∀ n, part = .int n → (natText n.natAbs).length ≤ maxStrDigits := by
    constructor
    case int =>
      rintro n short other same
      obtain rfl := JsonPart.int.inj same
      exact short
    all_goals simp
  exact shortIntegers_iff.mpr (rule.read trivial result)

end Json

end ImposbroSearch.Foundation
