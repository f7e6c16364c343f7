import ImposbroSearch.Foundation.JsonObjects
import Mathlib.Data.List.TakeWhile

/-!
# What reading yields

What is read of a text is made of its strings and its numerals. So what holds of every part
of a value follows from what holds of one string and of one numeral, with a property of the
text that whatever is left of it keeps.
-/

namespace ImposbroSearch.Foundation

/-! ## What is left of a text -/

theorem skipSpace_suffix (text : Text) : skipSpace text <:+ text := List.dropWhile_suffix _

theorem textBehind_suffix {word text rest : Text} (behind : textBehind word text = some rest) :
    rest <:+ text := by
  unfold textBehind at behind
  split_ifs at behind
  obtain rfl := Option.some.inj behind
  exact List.drop_suffix _ _

theorem scanWhole_suffix {text whole rest : Text} (scanned : scanWhole text = some (whole, rest)) :
    rest <:+ text := by
  cases text with
  | nil => cases scanned
  | cons c text =>
      rw [scanWhole] at scanned
      split_ifs at scanned with zero digit
      · obtain ⟨-, rfl⟩ := Prod.mk.inj (Option.some.inj scanned)
        exact List.suffix_cons c text
      · obtain ⟨-, rfl⟩ := Prod.mk.inj (Option.some.inj scanned)
        exact (List.dropWhile_suffix _).trans (List.suffix_cons c text)

theorem scanFraction_suffix (text : Text) : (scanFraction text).2 <:+ text := by
  unfold scanFraction
  split
  next c rest =>
    split_ifs
    · exact (List.dropWhile_suffix _).trans
        ((List.suffix_cons c rest).trans (List.suffix_cons 46 _))
    · exact List.suffix_rfl
  next => exact List.suffix_rfl

theorem scanSign_suffix (text : Text) : (scanSign text).2 <:+ text := by
  unfold scanSign
  split
  next rest => exact List.suffix_cons 45 rest
  next rest => exact List.suffix_cons 43 rest
  next => exact List.suffix_rfl

theorem scanExponent_suffix (text : Text) : (scanExponent text).2 <:+ text := by
  unfold scanExponent
  split
  next => exact List.suffix_rfl
  next c rest =>
    split_ifs
    · exact List.suffix_rfl
    · exact (List.dropWhile_suffix _).trans ((scanSign_suffix rest).trans (List.suffix_cons c rest))
    · exact List.suffix_rfl

theorem scanWhole_digits {text whole rest : Text} (scanned : scanWhole text = some (whole, rest)) :
    NumberLiteral.Digits whole := by
  cases text with
  | nil => cases scanned
  | cons c text =>
      rw [scanWhole] at scanned
      split_ifs at scanned with zero digit
      · obtain ⟨rfl, -⟩ := Prod.mk.inj (Option.some.inj scanned)
        exact ⟨List.cons_ne_nil _ _, rfl⟩
      · obtain ⟨rfl, -⟩ := Prod.mk.inj (Option.some.inj scanned)
        refine ⟨List.cons_ne_nil _ _, ?_⟩
        rw [List.all_cons, digit, Bool.true_and, List.all_eq_true]
        exact fun other member => List.mem_takeWhile_imp member

/-- A numeral and what is left behind it. -/
theorem scanNumber_some {text rest : Text} {literal : NumberLiteral}
    (scanned : scanNumber text = some (literal, rest)) :
    NumberLiteral.Digits literal.whole ∧ rest <:+ text := by
  unfold scanNumber at scanned
  simp only at scanned
  split at scanned
  next => cases scanned
  next whole behind digits =>
    obtain ⟨rfl, rfl⟩ := Prod.mk.inj (Option.some.inj scanned)
    have signed : (if text.head? = some 45 then text.tail else text) <:+ text := by
      split_ifs
      · exact List.tail_suffix text
      · exact List.suffix_rfl
    exact ⟨scanWhole_digits digits, (scanExponent_suffix _).trans
      ((scanFraction_suffix behind).trans ((scanWhole_suffix digits).trans signed))⟩

/-- A unit that a string may have: an escape of four digits, or a character that it has
itself or by a letter. -/
def UnitFits (allowed : ℕ → Prop) (unit : Bool × ℕ) : Prop :=
  if unit.1 then unit.2 < 0x10000 else unit.2 < 128 ∨ allowed unit.2

theorem hexNumber_lt {a b c d n : ℕ} (number : hexNumber a b c d = some n) : n < 0x10000 := by
  have digit : ∀ {c n : ℕ}, hexValue c = some n → n < 16 := by
    intro c n value
    unfold hexValue isDigit at value
    split_ifs at value with first second third
    · simp only [Bool.and_eq_true, decide_eq_true_eq] at first
      obtain rfl := Option.some.inj value
      omega
    · obtain rfl := Option.some.inj value
      omega
    · obtain rfl := Option.some.inj value
      omega
  unfold hexNumber at number
  split at number
  next a b c d first second third fourth =>
    obtain rfl := Option.some.inj number
    have bounds := And.intro (digit first) (And.intro (digit second)
      (And.intro (digit third) (digit fourth)))
    omega
  next => cases number

theorem unescapeLetter_lt {letter c : ℕ} (escape : unescapeLetter letter = some c) : c < 128 := by
  unfold unescapeLetter at escape
  split_ifs at escape
  all_goals
    obtain rfl := Option.some.inj escape
    decide

/-- **A string and what is left behind it.** -/
theorem scanString_some {text left : Text} {units : List (Bool × ℕ)}
    (scanned : scanString text = some (units, left)) :
    (∀ unit ∈ units, UnitFits (· ∈ text) unit) ∧ left <:+ text := by
  -- one more unit before a string that was scanned
  have next : ∀ {unit : Bool × ℕ} {text rest left : Text} {units : List (Bool × ℕ)},
      (scanString rest).map (fun scanned => (unit :: scanned.1, scanned.2)) =
        some (units, left) → UnitFits (· ∈ text) unit → rest <:+ text →
      (∀ {units left}, scanString rest = some (units, left) →
        (∀ unit ∈ units, UnitFits (· ∈ rest) unit) ∧ left <:+ rest) →
      (∀ unit ∈ units, UnitFits (· ∈ text) unit) ∧ left <:+ text := by
    intro unit text rest left units mapped fits behind ih
    obtain ⟨⟨others, after⟩, here, same⟩ := Option.map_eq_some_iff.mp mapped
    obtain ⟨rfl, rfl⟩ := Prod.mk.inj same
    obtain ⟨all, suffix⟩ := ih here
    refine ⟨fun own member => ?_, suffix.trans behind⟩
    rcases List.mem_cons.mp member with rfl | later
    · exact fits
    · have inside := all own later
      unfold UnitFits at inside ⊢
      split_ifs at inside ⊢
      · exact inside
      · exact inside.imp_right fun within => behind.subset within
  induction text using scanString.induct generalizing units left with
  | case1 => cases scanned
  | case2 rest =>
      rw [scanString] at scanned
      obtain ⟨rfl, rfl⟩ := Prod.mk.inj (Option.some.inj scanned)
      exact ⟨fun _ member => absurd member List.not_mem_nil, List.suffix_cons 34 _⟩
  | case3 a b c d rest none =>
      rw [scanString, none] at scanned
      cases scanned
  | case4 a b c d rest unit number ih =>
      rw [scanString, number] at scanned
      exact next scanned (hexNumber_lt number) ⟨[92, 117, a, b, c, d], rfl⟩ ih
  | case5 letter rest apart none =>
      rw [scanString, none] at scanned
      · cases scanned
      · exact apart
  | case6 letter rest apart unit escape ih =>
      rw [scanString, escape] at scanned
      · exact next scanned (Or.inl (unescapeLetter_lt escape)) ⟨[92, letter], rfl⟩ ih
      · exact apart
  | case7 c rest first second third bad =>
      rw [scanString, if_pos bad] at scanned
      · cases scanned
      · exact first
      · exact second
      · exact third
  | case8 c rest first second third good ih =>
      rw [scanString, if_neg good] at scanned
      · exact next scanned (Or.inr List.mem_cons_self) (List.suffix_cons c rest) ih
      · exact first
      · exact second
      · exact third

/-! ## The parts of what is read -/

namespace Json

variable {F : Type}

/-- What holds of the parts that are read of texts with a property. -/
structure ReadRule (I : Text → Prop) (P : JsonPart F → Prop) : Prop where
  suffix : ∀ {text left : Text}, left <:+ text → I text → I left
  string : ∀ {text left : Text} {units : List (Bool × ℕ)}, I text →
    scanString text = some (units, left) → P (.text (joinPairs units))
  keys : ∀ listed, P (.keys listed)
  constant : P .constant
  int : ∀ n : ℤ, (natText n.natAbs).length ≤ maxStrDigits → P (.int n)
  float : ∀ x, P (.float x)

/-- What one recursion of the reader returns. -/
structure Reads [PyFloat F] (I : Text → Prop) (P : JsonPart F → Prop) (constants : Bool) (fuel : ℕ) :
    Prop where
  value : ∀ {text left : Text} {v : Json F}, I text →
    scanValue constants fuel text = .ok (v, left) → (∀ part ∈ v.parts, P part) ∧ I left
  items : ∀ {text left : Text} {items : List (Json F)}, I text →
    scanItems constants fuel text = .ok (items, left) →
      (∀ part ∈ partsOfItems items, P part) ∧ I left
  fields : ∀ {text left : Text} {fields : List (Text × Json F)}, I text →
    scanFields constants fuel text = .ok (fields, left) →
      (∀ part ∈ partsOfFields fields, P part) ∧ I left

namespace ReadRule

variable {I : Text → Prop} {P : JsonPart F → Prop} (rule : ReadRule I P)

include rule

theorem skip {text : Text} (held : I text) : I (skipSpace text) :=
  rule.suffix (skipSpace_suffix text) held

/-- Behind a character that blanks may come before. -/
theorem behind {text left : Text} {c : ℕ} (held : I text) (next : skipSpace text = c :: left) :
    I left := by
  have skipped := rule.skip held
  rw [next] at skipped
  exact rule.suffix (List.suffix_cons c left) skipped

theorem word {constants : Bool} {text left : Text} {v : Json F} (held : I text)
    (scanned : scanWord constants text = some (v, left)) : (∀ part ∈ v.parts, P part) ∧ I left := by
  unfold scanWord at scanned
  obtain ⟨word, listed, found⟩ := List.exists_of_findSome?_eq_some scanned
  obtain ⟨rest, here, same⟩ := Option.map_eq_some_iff.mp found
  obtain ⟨rfl, rfl⟩ := Prod.mk.inj same
  refine ⟨?_, rule.suffix (textBehind_suffix here) held⟩
  have words : ∀ word ∈ ([(chars "null", .null), (chars "true", .bool true),
      (chars "false", .bool false), (chars "NaN", .nan), (chars "Infinity", .infinity false),
      (chars "-Infinity", .infinity true)] : List (Text × Json F)),
        ∀ part ∈ word.2.parts, P part := by
    simp [parts, rule.constant]
  apply words word
  cases constants with
  | true => exact listed
  | false =>
      simp only [Bool.false_eq_true, if_false, List.append_nil, List.mem_cons, List.not_mem_nil,
        or_false] at listed ⊢
      tauto

variable [PyFloat F]

theorem literal {literal : NumberLiteral} (digits : NumberLiteral.Digits literal.whole)
    {v : Json F} (valued : ofLiteral literal = .ok v) : ∀ part ∈ v.parts, P part := by
  unfold ofLiteral at valued
  split at valued
  · split at valued
    next short =>
      obtain rfl := Except.ok.inj valued
      intro part member
      obtain rfl := List.mem_singleton.mp member
      apply rule.int
      have worth : (if literal.negative = true then -(digitsValue literal.whole : ℤ)
          else digitsValue literal.whole).natAbs = digitsValue literal.whole := by
        split_ifs
        · omega
        · omega
      rw [worth]
      exact (natText_length_le (List.length_pos_of_ne_nil digits.1)
        (digitsValue_lt digits.2)).trans short
    next => cases valued
  · split at valued
    next x nearest =>
      obtain rfl := Except.ok.inj valued
      intro part member
      obtain rfl := List.mem_singleton.mp member
      exact rule.float x
    next =>
      obtain rfl := Except.ok.inj valued
      intro part member
      obtain rfl := List.mem_singleton.mp member
      exact rule.constant

theorem value {constants : Bool} {fuel : ℕ} (reads : Reads I P constants fuel)
    {text left : Text} {v : Json F} (held : I text)
    (scanned : scanValue constants (fuel + 1) text = .ok (v, left)) :
    (∀ part ∈ v.parts, P part) ∧ I left := by
  cases text with
  | nil => cases scanned
  | cons c text =>
      have tail := rule.suffix (List.suffix_cons c text) held
      rw [scanValue] at scanned
      split at scanned
      · split at scanned
        next => cases scanned
        next units rest here =>
          obtain ⟨rfl, rfl⟩ := Prod.mk.inj (Except.ok.inj scanned)
          refine ⟨fun part member => ?_, rule.suffix (scanString_some here).2 tail⟩
          obtain rfl := List.mem_singleton.mp member
          exact rule.string tail here
      · split at scanned
        · split at scanned
          next rest empty =>
            obtain ⟨rfl, rfl⟩ := Prod.mk.inj (Except.ok.inj scanned)
            exact ⟨fun part member => absurd member List.not_mem_nil, rule.behind tail empty⟩
          next =>
            split at scanned
            next => cases scanned
            next items rest here =>
              obtain ⟨rfl, rfl⟩ := Prod.mk.inj (Except.ok.inj scanned)
              exact reads.items (rule.skip tail) here
        · split at scanned
          · split at scanned
            next rest empty =>
              obtain ⟨rfl, rfl⟩ := Prod.mk.inj (Except.ok.inj scanned)
              refine ⟨fun part member => ?_, rule.behind tail empty⟩
              obtain rfl := List.mem_singleton.mp member
              exact rule.keys []
            next =>
              split at scanned
              next => cases scanned
              next fields rest here =>
                obtain ⟨rfl, rfl⟩ := Prod.mk.inj (Except.ok.inj scanned)
                obtain ⟨all, after⟩ := reads.fields (rule.skip tail) here
                exact ⟨List.forall_mem_cons.mpr ⟨rule.keys _, all⟩, after⟩
          · split at scanned
            next word rest here =>
              obtain ⟨rfl, rfl⟩ := Prod.mk.inj (Except.ok.inj scanned)
              exact rule.word held here
            next =>
              split at scanned
              next => cases scanned
              next literal rest number =>
                obtain ⟨digits, suffix⟩ := scanNumber_some number
                split at scanned
                next => cases scanned
                next value valued =>
                  obtain ⟨rfl, rfl⟩ := Prod.mk.inj (Except.ok.inj scanned)
                  exact ⟨rule.literal digits valued, rule.suffix suffix held⟩

theorem items {constants : Bool} {fuel : ℕ} (reads : Reads I P constants fuel)
    {text left : Text} {items : List (Json F)} (held : I text)
    (scanned : scanItems constants (fuel + 1) text = .ok (items, left)) :
    (∀ part ∈ partsOfItems items, P part) ∧ I left := by
  rw [scanItems] at scanned
  split at scanned
  next => cases scanned
  next item rest first =>
    obtain ⟨own, after⟩ := reads.value held first
    split at scanned
    next rest last =>
      obtain ⟨rfl, rfl⟩ := Prod.mk.inj (Except.ok.inj scanned)
      refine ⟨?_, rule.behind after last⟩
      rw [partsOfItems, partsOfItems, List.append_nil]
      exact own
    next rest comma =>
      split at scanned
      next => cases scanned
      next others end_ more =>
        obtain ⟨rfl, rfl⟩ := Prod.mk.inj (Except.ok.inj scanned)
        obtain ⟨all, at_end⟩ := reads.items (rule.skip (rule.behind after comma)) more
        rw [partsOfItems]
        exact ⟨List.forall_mem_append.mpr ⟨own, all⟩, at_end⟩
    next => cases scanned

theorem fields {constants : Bool} {fuel : ℕ} (reads : Reads I P constants fuel)
    {text left : Text} {fields : List (Text × Json F)} (held : I text)
    (scanned : scanFields constants (fuel + 1) text = .ok (fields, left)) :
    (∀ part ∈ partsOfFields fields, P part) ∧ I left := by
  rw [scanFields.eq_def] at scanned
  simp only at scanned
  split at scanned
  next quoted =>
    have inside := rule.suffix (List.suffix_cons _ _) held
    split at scanned
    next => cases scanned
    next units rest key =>
      have text := rule.string inside key
      have after := rule.suffix (scanString_some key).2 inside
      split at scanned
      next rest colon =>
        split at scanned
        next => cases scanned
        next value rest first =>
          obtain ⟨own, behind⟩ := reads.value (rule.skip (rule.behind after colon)) first
          split at scanned
          next rest last =>
            obtain ⟨rfl, rfl⟩ := Prod.mk.inj (Except.ok.inj scanned)
            refine ⟨?_, rule.behind behind last⟩
            rw [partsOfFields, partsOfFields, List.append_nil]
            exact List.forall_mem_cons.mpr ⟨text, own⟩
          next rest comma =>
            split at scanned
            next => cases scanned
            next others end_ more =>
              obtain ⟨rfl, rfl⟩ := Prod.mk.inj (Except.ok.inj scanned)
              obtain ⟨all, at_end⟩ := reads.fields (rule.skip (rule.behind behind comma)) more
              rw [partsOfFields]
              exact ⟨List.forall_mem_cons.mpr
                ⟨text, List.forall_mem_append.mpr ⟨own, all⟩⟩, at_end⟩
          next => cases scanned
      next => cases scanned
  next => cases scanned

theorem reads (constants : Bool) (fuel : ℕ) : Reads I P constants fuel := by
  induction fuel with
  | zero =>
      constructor
      all_goals
        intro _ _ _ _ scanned
        cases scanned
  | succ fuel ih => exact ⟨rule.value ih, rule.items ih, rule.fields ih⟩

/-- **What is read** of a text with the property has such parts only. -/
theorem read {constants : Bool} {text : Text} {v : Json F} (held : I text)
    (result : Json.read constants text = .ok v) : ∀ part ∈ v.parts, P part := by
  unfold Json.read at result
  split at result
  next => cases result
  next value rest scanned =>
    split at result
    next =>
      obtain rfl := Except.ok.inj result
      exact ((rule.reads constants _).value (rule.skip held) scanned).1
    next => cases result

end ReadRule

/-- Making dicts adds no part but keys. -/
theorem forall_parts_dicts {P : JsonPart F → Prop} (keys : ∀ listed, P (.keys listed))
    {v : Json F} (all : ∀ part ∈ v.parts, P part) : ∀ part ∈ v.dicts.parts, P part := by
  induction v using nestedInduction with
  | list items ih =>
      rw [forall_parts_list] at all
      rw [dicts, dictsOfItems_eq, forall_parts_list, List.forall_mem_map]
      exact fun item member => ih item member (all item member)
  | object fields ih =>
      rw [forall_parts_object] at all
      rw [dicts, dictsOfFields_eq, forall_parts_object]
      refine ⟨keys _, fun field member => ?_⟩
      obtain ⟨source, listed, rfl⟩ := List.mem_map.mp (mem_of_mem_dictOf member)
      exact ⟨(all.2 source listed).1, ih source listed (all.2 source listed).2⟩
  | _ => exact all

end Json

end ImposbroSearch.Foundation
