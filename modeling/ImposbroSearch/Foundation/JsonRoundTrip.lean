import ImposbroSearch.Foundation.Json

/-!
# What is printed is read back

In every layout a printed value is read as itself, if its integers are not too long, if
its strings survive the escapes, and if the constants are admitted wherever they occur.
So a layout determines the values it prints.
-/

namespace ImposbroSearch.Foundation

/-! ## Strings -/

theorem hexValue_hexDigit {n : ℕ} (small : n < 16) : hexValue (hexDigit n) = some n := by
  interval_cases n
  all_goals rfl

theorem hexNumber_hexDigit {n : ℕ} (small : n < 0x10000) :
    hexNumber (hexDigit (n / 4096 % 16)) (hexDigit (n / 256 % 16)) (hexDigit (n / 16 % 16))
      (hexDigit (n % 16)) = some n := by
  have digit : ∀ m, hexValue (hexDigit (m % 16)) = some (m % 16) := fun m =>
    hexValue_hexDigit (Nat.mod_lt m (by norm_num))
  unfold hexNumber
  rw [digit, digit, digit, digit]
  simp only [Option.some.injEq]
  omega

theorem scanString_unicodeEscape {n : ℕ} (small : n < 0x10000) (rest : Text) :
    scanString (unicodeEscape n ++ rest) =
      (scanString rest).map fun scanned => ((true, n) :: scanned.1, scanned.2) := by
  unfold unicodeEscape
  simp only [List.cons_append, List.nil_append]
  rw [scanString, hexNumber_hexDigit small]

theorem escapeLetter_cases {c letter : ℕ} (escaped : escapeLetter c = some letter) :
    letter ≠ 117 ∧ unescapeLetter letter = some c ∧ (c < 32 ∨ c = 34 ∨ c = 92) := by
  unfold escapeLetter at escaped
  split_ifs at escaped
  all_goals
    obtain rfl := Option.some.inj escaped
    subst c
    decide

theorem scanString_letter {c letter : ℕ} (escaped : escapeLetter c = some letter) (rest : Text) :
    scanString (92 :: letter :: rest) =
      (scanString rest).map fun scanned => ((false, c) :: scanned.1, scanned.2) := by
  obtain ⟨numbered, back, -⟩ := escapeLetter_cases escaped
  rw [scanString.eq_def]
  split
  · simp_all
  · simp_all
  · simp_all
  next other here =>
    obtain ⟨-, tail⟩ := List.cons.inj here
    obtain ⟨rfl, rfl⟩ := List.cons.inj tail
    rw [back]
  next c' other first second here =>
    obtain ⟨rfl, rfl⟩ := List.cons.inj here
    exact absurd rfl (second letter rest rfl)

theorem scanString_plain {c : ℕ} (printable : 32 ≤ c) (quote : c ≠ 34) (backslash : c ≠ 92)
    (rest : Text) : scanString (c :: rest) =
      (scanString rest).map fun scanned => ((false, c) :: scanned.1, scanned.2) := by
  rw [scanString.eq_def]
  split
  · simp_all
  · simp_all
  · simp_all
  · simp_all
  next other tail first second third here =>
    obtain ⟨rfl, rfl⟩ := List.cons.inj here
    rw [if_neg (by omega)]

/-- The code units that a printed character is scanned as. -/
def charUnits (ensureAscii : Bool) (c : ℕ) : List (Bool × ℕ) :=
  match escapeLetter c with
  | some _ => [(false, c)]
  | none =>
    if c < 32 then [(true, c)]
    else if c < 127 ∨ ensureAscii = false then [(false, c)]
    else if c < 0x10000 then [(true, c)]
    else [(true, 0xd800 + (c - 0x10000) / 1024), (true, 0xdc00 + (c - 0x10000) % 1024)]

theorem scanString_escapeChar {ensureAscii : Bool} {c : ℕ}
    (encodable : ensureAscii = true → c < 0x110000) (rest : Text) :
    scanString (escapeChar ensureAscii c ++ rest) =
      (scanString rest).map fun scanned =>
        (charUnits ensureAscii c ++ scanned.1, scanned.2) := by
  unfold escapeChar charUnits
  cases escaped : escapeLetter c with
  | some letter => exact scanString_letter escaped rest
  | none =>
      simp only
      split_ifs with control plain basic
      · exact scanString_unicodeEscape (by omega) rest
      · refine scanString_plain (by omega) ?_ ?_ rest
        · rintro rfl
          cases escaped
        · rintro rfl
          cases escaped
      · exact scanString_unicodeEscape basic rest
      · have ascii : ensureAscii = true := by
          cases ensureAscii with
          | true => rfl
          | false => exact absurd (Or.inr rfl) plain
        have point := encodable ascii
        rw [List.append_assoc, scanString_unicodeEscape (by omega),
          scanString_unicodeEscape (by omega), Option.map_map]
        rfl

/-- **A printed string** is scanned up to its closing quote. -/
theorem scanString_text {ensureAscii : Bool} {text : Text}
    (encodable : ensureAscii = true → ∀ c ∈ text, c < 0x110000) (rest : Text) :
    scanString (text.flatMap (escapeChar ensureAscii) ++ 34 :: rest) =
      some (text.flatMap (charUnits ensureAscii), rest) := by
  induction text with
  | nil => rfl
  | cons c text ih =>
      rw [List.flatMap_cons, List.append_assoc,
        scanString_escapeChar fun ascii => encodable ascii c List.mem_cons_self,
        ih fun ascii other member => encodable ascii other (List.mem_cons_of_mem c member)]
      rfl

/-- An escape that begins no pair stands for itself. -/
theorem joinPairs_cons {unit : Bool × ℕ} {units : List (Bool × ℕ)}
    (single : unit.1 = true → ¬(0xd800 ≤ unit.2 ∧ unit.2 ≤ 0xdbff)) :
    joinPairs (unit :: units) = unit.2 :: joinPairs units := by
  obtain ⟨escaped, c⟩ := unit
  cases escaped with
  | false => rfl
  | true =>
      cases units with
      | nil => rfl
      | cons other units =>
          obtain ⟨also, low⟩ := other
          cases also with
          | false => rfl
          | true =>
              rw [joinPairs, if_neg fun pair => single rfl pair.1]

theorem joinPairs_pair {high low : ℕ} {units : List (Bool × ℕ)}
    (pair : (0xd800 ≤ high ∧ high ≤ 0xdbff) ∧ 0xdc00 ≤ low ∧ low ≤ 0xdfff) :
    joinPairs ((true, high) :: (true, low) :: units) =
      (0x10000 + (high - 0xd800) * 1024 + (low - 0xdc00)) :: joinPairs units := by
  rw [joinPairs, if_pos pair]

theorem joinPairs_charUnits {ensureAscii : Bool} {c : ℕ}
    (encodable : ensureAscii = true → IsScalar c) (units : List (Bool × ℕ)) :
    joinPairs (charUnits ensureAscii c ++ units) = c :: joinPairs units := by
  unfold charUnits
  cases escaped : escapeLetter c with
  | some letter => exact joinPairs_cons nofun
  | none =>
      simp only
      split_ifs with control plain basic
      · exact joinPairs_cons fun _ => by omega
      · exact joinPairs_cons nofun
      all_goals
        have ascii : ensureAscii = true := by
          cases ensureAscii with
          | true => rfl
          | false => exact absurd (Or.inr rfl) plain
        have scalar := encodable ascii
        unfold IsScalar at scalar
      · exact joinPairs_cons fun _ => by
          show ¬(0xd800 ≤ c ∧ c ≤ 0xdbff)
          omega
      · refine (joinPairs_pair (by omega)).trans (congrArg (· :: joinPairs units) ?_)
        omega

/-- A string as it is read back: of escaped surrogates, those that make a pair are joined. -/
def rejoin (ensureAscii : Bool) (text : Text) : Text :=
  joinPairs (text.flatMap (charUnits ensureAscii))

theorem rejoin_eq {ensureAscii : Bool} {text : Text}
    (encodable : ensureAscii = true → ∀ c ∈ text, IsScalar c) : rejoin ensureAscii text = text := by
  unfold rejoin
  induction text with
  | nil => rfl
  | cons c text ih =>
      rw [List.flatMap_cons,
        joinPairs_charUnits fun ascii => encodable ascii c List.mem_cons_self,
        ih fun ascii other member => encodable ascii other (List.mem_cons_of_mem c member)]

/-! ## Blanks and words -/

def JsonStyle.blank (style : JsonStyle) : Text := if style.spaced then [32] else []

theorem JsonStyle.itemSeparator_eq (style : JsonStyle) :
    style.itemSeparator = 44 :: style.blank := by
  unfold JsonStyle.itemSeparator JsonStyle.blank
  split_ifs
  · rfl
  · rfl

theorem JsonStyle.keySeparator_eq (style : JsonStyle) :
    style.keySeparator = 58 :: style.blank := by
  unfold JsonStyle.keySeparator JsonStyle.blank
  split_ifs
  · rfl
  · rfl

theorem skipSpace_cons {c : ℕ} (visible : isSpace c = false) (rest : Text) :
    skipSpace (c :: rest) = c :: rest :=
  List.dropWhile_cons_of_neg (by simp [visible])

theorem skipSpace_blank (style : JsonStyle) {text : Text}
    (visible : ∀ c ∈ text.head?, isSpace c = false) : skipSpace (style.blank ++ text) = text := by
  have bare : skipSpace text = text := by
    cases text with
    | nil => rfl
    | cons c text => exact skipSpace_cons (visible c rfl) text
  unfold JsonStyle.blank
  split_ifs
  · exact bare
  · exact bare

namespace Json

variable {F : Type}

/-- A text that begins like no word. -/
theorem scanWord_eq_none (constants : Bool) {c : ℕ} {rest : Text}
    (begins : isDigit c = true ∨ c = 45 ∧ ∀ d ∈ rest.head?, isDigit d = true) :
    (scanWord constants (c :: rest) : Option (Json F × Text)) = none := by
  have words : ∀ word : Text × Json F,
      word ∈ ([(chars "null", .null), (chars "true", .bool true), (chars "false", .bool false),
        (chars "NaN", .nan), (chars "Infinity", .infinity false),
        (chars "-Infinity", .infinity true)] : List (Text × Json F)) →
      textBehind word.1 (c :: rest) = none := by
    have apart : ∀ {d tail}, c ≠ d → textBehind (d :: tail) (c :: rest) = none := by
      intro d tail differs
      unfold textBehind
      rw [if_neg]
      rw [List.isPrefixOf_cons_cons, Bool.and_eq_true]
      exact fun both => differs (beq_iff_eq.mp both.1).symm
    have letter : ∀ {d tail}, d ∉ [48, 49, 50, 51, 52, 53, 54, 55, 56, 57, 45] →
        textBehind (d :: tail) (c :: rest) = none := by
      intro d tail other
      refine apart ?_
      rintro rfl
      apply other
      rcases begins with digit | ⟨rfl, -⟩
      · unfold isDigit at digit
        simp only [Bool.and_eq_true, decide_eq_true_eq] at digit
        simp only [List.mem_cons, List.not_mem_nil, or_false]
        omega
      · decide
    intro word listed
    simp only [List.mem_cons, List.not_mem_nil, or_false] at listed
    rcases listed with rfl | rfl | rfl | rfl | rfl | rfl
    · exact letter (by decide)
    · exact letter (by decide)
    · exact letter (by decide)
    · exact letter (by decide)
    · exact letter (by decide)
    · by_cases minus : c = 45
      · -- a digit follows the sign, and not the word
        subst minus
        rcases begins with digit | ⟨-, digits⟩
        · exact absurd digit (by decide)
        · unfold textBehind
          rw [if_neg]
          cases rest with
          | nil =>
              show ¬List.isPrefixOf (chars "-Infinity") [45] = true
              decide
          | cons d rest =>
              intro prefix_
              have first : 73 = d := by
                have both := Bool.and_eq_true_iff.mp prefix_
                exact beq_iff_eq.mp (Bool.and_eq_true_iff.mp both.2).1
              exact absurd (digits d rfl) (by rw [← first]; decide)
      · exact apart minus
  unfold scanWord
  refine List.findSome?_eq_none_iff.mpr fun word listed => ?_
  rw [words word, Option.map_none]
  cases constants with
  | true => exact listed
  | false =>
      rcases List.mem_append.mp listed with plain | none
      · simp only [List.mem_cons, List.not_mem_nil, or_false] at plain ⊢
        tauto
      · cases none

theorem numeral_begins {literal : NumberLiteral} (formed : literal.WellFormed) (rest : Text) :
    ∃ c tail, literal.text ++ rest = c :: tail ∧
      (isDigit c = true ∨ c = 45 ∧ ∀ d ∈ tail.head?, isDigit d = true) := by
  obtain ⟨nonempty, all⟩ := formed.whole
  unfold NumberLiteral.text
  cases whole : literal.whole with
  | nil => exact absurd whole nonempty
  | cons c tail =>
      rw [whole, List.all_cons] at all
      have digit := (Bool.and_eq_true_iff.mp all).1
      cases literal.negative with
      | false => exact ⟨c, _, rfl, Or.inl digit⟩
      | true =>
          refine ⟨45, _, rfl, Or.inr ⟨rfl, ?_⟩⟩
          intro d here
          obtain rfl := Option.some.inj here
          exact digit

variable [PyFloat F]

/-- A numeral is scanned as its value. -/
theorem scanValue_numeral (constants : Bool) (fuel : ℕ) {literal : NumberLiteral} {value : Json F}
    (formed : literal.WellFormed) (worth : ofLiteral literal = .ok value) {rest : Text}
    (stop : Stops rest) :
    scanValue constants (fuel + 1) (literal.text ++ rest) = .ok (value, rest) := by
  have scanned := scanNumber_text formed stop
  obtain ⟨c, tail, text, begins⟩ := numeral_begins formed rest
  have first : c ≠ 34 ∧ c ≠ 91 ∧ c ≠ 123 := by
    rcases begins with digit | ⟨rfl, -⟩
    · unfold isDigit at digit
      simp only [Bool.and_eq_true, decide_eq_true_eq] at digit
      omega
    · decide
  rw [text] at scanned ⊢
  rw [scanValue, if_neg first.1, if_neg first.2.1, if_neg first.2.2,
    scanWord_eq_none constants begins]
  simp only
  rw [scanned]
  simp only
  rw [worth]

theorem ofLiteral_int {n : ℤ} (short : (natText n.natAbs).length ≤ maxStrDigits) :
    (ofLiteral (intLiteral n) : Except JsonError (Json F)) = .ok (.int n) := by
  unfold ofLiteral
  have integer : (intLiteral n).isInteger = true := rfl
  have whole : (intLiteral n).whole.length ≤ maxStrDigits := short
  rw [if_pos integer, if_pos whole]
  have value : digitsValue (intLiteral n).whole = n.natAbs := digitsValue_natText n.natAbs
  rw [value]
  unfold intLiteral
  simp only [decide_eq_true_eq]
  split_ifs
  · congr 2
    omega
  · congr 2
    omega

theorem ofLiteral_float (x : F) :
    ofLiteral (floatLiteral (PyFloat.decimal x)) = .ok (.float x) := by
  unfold ofLiteral
  rw [if_neg (by rw [floatLiteral_not_integer]; exact Bool.false_ne_true),
    PyFloat.nearest_congr (floatLiteral_same (PyFloat.decimal x)), PyFloat.nearest_decimal]

/-! ## Values -/

end Json

/-- A part that the reader takes as it is printed. -/
def JsonPart.Scannable {F : Type} (style : JsonStyle) (constants : Bool) : JsonPart F → Prop
  | .int n => (natText n.natAbs).length ≤ maxStrDigits
  | .float _ => True
  | .constant => constants = true
  | .text characters => style.ensureAscii = true → ∀ c ∈ characters, c < 0x110000
  | .keys _ => True

/-- A part that is read as it is printed. -/
def JsonPart.Readable {F : Type} (style : JsonStyle) (constants : Bool) : JsonPart F → Prop
  | .int n => (natText n.natAbs).length ≤ maxStrDigits
  | .float _ => True
  | .constant => constants = true
  | .text characters => style.ensureAscii = true → ∀ c ∈ characters, IsScalar c
  | .keys _ => True

namespace Json

variable {F : Type}

/-- The reader takes every part. -/
def Scannable (style : JsonStyle) (constants : Bool) (v : Json F) : Prop :=
  ∀ part ∈ v.parts, part.Scannable style constants

/-- Every part is read as it is printed. -/
def Readable (style : JsonStyle) (constants : Bool) (v : Json F) : Prop :=
  ∀ part ∈ v.parts, part.Readable style constants

theorem Readable.scannable {style : JsonStyle} {constants : Bool} {v : Json F}
    (readable : v.Readable style constants) : v.Scannable style constants := by
  intro part member
  have reads := readable part member
  cases part with
  | text characters =>
      intro ascii c within
      have scalar := reads ascii c within
      unfold IsScalar at scalar
      omega
  | _ => exact reads

mutual

/-- A value as it is read back. -/
def reread (style : JsonStyle) : Json F → Json F
  | .str text => .str (rejoin style.ensureAscii text)
  | .list items => .list (rereadItems style items)
  | .object fields => .object (rereadFields style fields)
  | .null => .null
  | .bool value => .bool value
  | .int n => .int n
  | .float x => .float x
  | .nan => .nan
  | .infinity negative => .infinity negative

def rereadItems (style : JsonStyle) : List (Json F) → List (Json F)
  | [] => []
  | item :: items => reread style item :: rereadItems style items

def rereadFields (style : JsonStyle) : List (Text × Json F) → List (Text × Json F)
  | [] => []
  | (key, value) :: fields =>
    (rejoin style.ensureAscii key, reread style value) :: rereadFields style fields

end

mutual

/-- A readable value is read back as it was. -/
theorem reread_eq {style : JsonStyle} {constants : Bool} :
    ∀ v : Json F, v.Readable style constants → reread style v = v
  | .null, _ => rfl
  | .bool _, _ => rfl
  | .int _, _ => rfl
  | .float _, _ => rfl
  | .nan, _ => rfl
  | .infinity _, _ => rfl
  | .str text, readable => by
      rw [reread, rejoin_eq (readable (.text text) (List.mem_singleton_self _))]
  | .list items, readable => by rw [reread, rereadItems_eq items readable]
  | .object fields, readable => by
      rw [reread, rereadFields_eq fields fun part member =>
        readable part (List.mem_cons_of_mem _ member)]

theorem rereadItems_eq {style : JsonStyle} {constants : Bool} : ∀ items : List (Json F),
    (∀ part ∈ partsOfItems items, part.Readable style constants) → rereadItems style items = items
  | [], _ => rfl
  | item :: items, readable => by
      rw [rereadItems, reread_eq item fun part member => readable part (List.mem_append_left _ member),
        rereadItems_eq items fun part member => readable part (List.mem_append_right _ member)]

theorem rereadFields_eq {style : JsonStyle} {constants : Bool} : ∀ fields : List (Text × Json F),
    (∀ part ∈ partsOfFields fields, part.Readable style constants) →
      rereadFields style fields = fields
  | [], _ => rfl
  | (key, value) :: fields, readable => by
      rw [rereadFields, rejoin_eq (readable (.text key) List.mem_cons_self),
        reread_eq value fun part member =>
          readable part (List.mem_cons_of_mem _ (List.mem_append_left _ member)),
        rereadFields_eq fields fun part member =>
          readable part (List.mem_cons_of_mem _ (List.mem_append_right _ member))]

end

mutual

/-- The recursion that reading takes. -/
def weight : Json F → ℕ
  | .list items => 1 + weightOfItems items
  | .object fields => 1 + weightOfFields fields
  | _ => 1

def weightOfItems : List (Json F) → ℕ
  | [] => 0
  | item :: items => 1 + (weight item + weightOfItems items)

def weightOfFields : List (Text × Json F) → ℕ
  | [] => 0
  | (_, value) :: fields => 1 + (weight value + weightOfFields fields)

end

variable [PyFloat F] (style : JsonStyle)

/-- A printed value begins with no blank and no closing bracket. -/
theorem print_begins (v : Json F) (rest : Text) : ∃ c tail, print style v ++ rest = c :: tail ∧
    isSpace c = false ∧ c ≠ 93 := by
  have numeral : ∀ {literal : NumberLiteral}, literal.WellFormed →
      ∃ c tail, literal.text ++ rest = c :: tail ∧ isSpace c = false ∧ c ≠ 93 := by
    intro literal formed
    obtain ⟨c, tail, text, begins⟩ := numeral_begins formed rest
    refine ⟨c, tail, text, ?_⟩
    rcases begins with digit | ⟨rfl, -⟩
    · unfold isDigit at digit
      unfold isSpace
      simp only [Bool.and_eq_true, decide_eq_true_eq] at digit
      simp only [Bool.or_eq_false_iff, decide_eq_false_iff_not]
      omega
    · decide
  cases v with
  | null => exact ⟨110, _, rfl, by decide⟩
  | bool value =>
      cases value with
      | true => exact ⟨116, _, rfl, by decide⟩
      | false => exact ⟨102, _, rfl, by decide⟩
  | int n =>
      rw [print]
      exact numeral (intLiteral_wellFormed n)
  | float x =>
      rw [print]
      exact numeral (floatLiteral_wellFormed (PyFloat.canonical x))
  | nan => exact ⟨78, _, rfl, by decide⟩
  | infinity negative =>
      cases negative with
      | false => exact ⟨73, _, rfl, by decide⟩
      | true => exact ⟨45, _, rfl, by decide⟩
  | str text =>
      rw [print]
      exact ⟨34, _, rfl, by decide⟩
  | list items =>
      cases items with
      | nil => exact ⟨91, _, by rw [print]; rfl, by decide⟩
      | cons item items => exact ⟨91, _, by rw [print]; rfl, by decide⟩
  | object fields =>
      cases fields with
      | nil => exact ⟨123, _, by rw [print]; rfl, by decide⟩
      | cons field fields => exact ⟨123, _, by rw [print]; rfl, by decide⟩

theorem stops_printItems (items : List (Json F)) (rest : Text) :
    Stops (printItems style items ++ rest) := by
  cases items with
  | nil =>
      rw [printItems]
      exact stops_cons rfl (by decide) (by decide) (by decide)
  | cons item items =>
      rw [printItems, style.itemSeparator_eq]
      exact stops_cons rfl (by decide) (by decide) (by decide)

theorem stops_printFields (fields : List (Text × Json F)) (rest : Text) :
    Stops (printFields style fields ++ rest) := by
  cases fields with
  | nil =>
      rw [printFields]
      exact stops_cons rfl (by decide) (by decide) (by decide)
  | cons field fields =>
      rw [printFields, style.itemSeparator_eq]
      exact stops_cons rfl (by decide) (by decide) (by decide)

/-- Behind a separator a value is not preceded by blanks. -/
theorem skipSpace_blank_print (v : Json F) (rest : Text) :
    skipSpace (style.blank ++ (print style v ++ rest)) = print style v ++ rest := by
  obtain ⟨c, tail, text, visible, -⟩ := print_begins style v rest
  refine skipSpace_blank style fun other here => ?_
  rw [text] at here
  obtain rfl := Option.some.inj here
  exact visible

/-- The rest of a field: from its key to the end of its object. -/
def fieldText (key : Text) (value : Json F) (rest : Text) : Text :=
  stringText style.ensureAscii key ++ (style.keySeparator ++ (print style value ++ rest))

/-- A field is scanned up to the end of its value. -/
theorem scanFields_field {constants : Bool} {fuel : ℕ} {key : Text} {value : Json F} {rest : Text}
    {own : Json F} (encodable : style.ensureAscii = true → ∀ c ∈ key, c < 0x110000)
    (scanned : scanValue constants fuel (print style value ++ rest) = .ok (own, rest)) :
    scanFields constants (fuel + 1) (fieldText style key value rest) =
      match skipSpace rest with
      | 125 :: rest => .ok ([(rejoin style.ensureAscii key, own)], rest)
      | 44 :: rest =>
        match scanFields constants fuel (skipSpace rest) with
        | .error error => .error error
        | .ok (fields, rest) => .ok ((rejoin style.ensureAscii key, own) :: fields, rest)
      | _ => .error .malformed := by
  have string : scanString (key.flatMap (escapeChar style.ensureAscii) ++
      (34 :: (style.keySeparator ++ (print style value ++ rest)))) =
        some (key.flatMap (charUnits style.ensureAscii),
          style.keySeparator ++ (print style value ++ rest)) := scanString_text encodable _
  unfold fieldText stringText
  rw [List.cons_append, List.append_assoc, List.singleton_append, scanFields,
    string, style.keySeparator_eq]
  simp only
  rw [List.cons_append, skipSpace_cons (by decide)]
  simp only
  rw [skipSpace_blank_print]
  revert scanned
  generalize (scanValue constants fuel (print style value ++ rest) :
    Except JsonError (Json F × Text)) = result
  rintro rfl
  rfl

variable (constants : Bool)

mutual

/-- **What is printed is scanned**, up to escaped surrogates that make a pair. -/
theorem scanValue_print : ∀ (v : Json F), v.Scannable style constants →
    ∀ (fuel : ℕ) (rest : Text), weight v ≤ fuel → Stops rest →
      scanValue constants fuel (print style v ++ rest) = .ok (reread style v, rest)
  | v, _, 0, _, enough, _ => by
      cases v
      all_goals
        simp only [weight] at enough
        omega
  | .null, _, fuel + 1, rest, _, _ => by
      cases constants with
      | true => rfl
      | false => rfl
  | .bool true, _, fuel + 1, rest, _, _ => by
      cases constants with
      | true => rfl
      | false => rfl
  | .bool false, _, fuel + 1, rest, _, _ => by
      cases constants with
      | true => rfl
      | false => rfl
  | .int n, scannable, fuel + 1, rest, _, stop => by
      have short : (natText n.natAbs).length ≤ maxStrDigits :=
        scannable (.int n) (List.mem_singleton_self _)
      rw [print]
      exact scanValue_numeral constants fuel (intLiteral_wellFormed n) (ofLiteral_int short) stop
  | .float x, _, fuel + 1, rest, _, stop => by
      rw [print]
      exact scanValue_numeral constants fuel (floatLiteral_wellFormed (PyFloat.canonical x))
        (ofLiteral_float x) stop
  | .nan, scannable, fuel + 1, rest, _, _ => by
      obtain rfl : constants = true := scannable .constant (List.mem_singleton_self _)
      rfl
  | .infinity false, scannable, fuel + 1, rest, _, _ => by
      obtain rfl : constants = true := scannable .constant (List.mem_singleton_self _)
      rfl
  | .infinity true, scannable, fuel + 1, rest, _, _ => by
      obtain rfl : constants = true := scannable .constant (List.mem_singleton_self _)
      rfl
  | .str text, scannable, fuel + 1, rest, _, _ => by
      have encodable : style.ensureAscii = true → ∀ c ∈ text, c < 0x110000 :=
        scannable (.text text) (List.mem_singleton_self _)
      rw [print, stringText, List.cons_append, List.append_assoc, List.singleton_append, scanValue,
        if_pos rfl, scanString_text encodable]
      rfl
  | .list [], _, fuel + 1, rest, _, _ => by
      rw [print]
      rfl
  | .list (item :: items), scannable, fuel + 1, rest, enough, _ => by
      simp only [weight, weightOfItems] at enough
      obtain ⟨fuel, rfl⟩ : ∃ less, fuel = less + 1 := ⟨fuel - 1, by omega⟩
      have first := scanValue_print item
        (fun part member => scannable part (List.mem_append_left _ member)) fuel
        (printItems style items ++ rest) (by omega) (stops_printItems style items rest)
      have others := scanItems_print items
        (fun part member => scannable part (List.mem_append_right _ member)) fuel rest
        (print style item ++ (printItems style items ++ rest)) (reread style item) first (by omega)
      obtain ⟨c, tail, text, visible, open_⟩ :=
        print_begins style item (printItems style items ++ rest)
      rw [print, List.cons_append, List.append_assoc, scanValue, if_neg (by decide), if_pos rfl]
      rw [text] at others ⊢
      rw [skipSpace_cons visible]
      split
      next here =>
        obtain ⟨closes, -⟩ := List.cons.inj here
        exact absurd closes open_
      · rw [others]
        rfl
  | .object [], _, fuel + 1, rest, _, _ => by
      rw [print]
      rfl
  | .object ((key, value) :: fields), scannable, fuel + 1, rest, enough, _ => by
      simp only [weight, weightOfFields] at enough
      obtain ⟨fuel, rfl⟩ : ∃ less, fuel = less + 1 := ⟨fuel - 1, by omega⟩
      have inside : ∀ part ∈ partsOfFields ((key, value) :: fields),
          part.Scannable style constants :=
        fun part member => scannable part (List.mem_cons_of_mem _ member)
      have first := scanValue_print value
        (fun part member => inside part (List.mem_cons_of_mem _ (List.mem_append_left _ member)))
        fuel (printFields style fields ++ rest) (by omega) (stops_printFields style fields rest)
      have others := scanFields_print fields
        (fun part member => inside part (List.mem_cons_of_mem _ (List.mem_append_right _ member)))
        fuel rest key value (inside (.text key) List.mem_cons_self) first (by omega)
      have text : print style (.object ((key, value) :: fields)) ++ rest =
          123 :: fieldText style key value (printFields style fields ++ rest) := by
        rw [print, fieldText]
        simp only [List.cons_append, List.append_assoc]
      have quoted : skipSpace (fieldText style key value (printFields style fields ++ rest)) =
          fieldText style key value (printFields style fields ++ rest) := skipSpace_cons rfl _
      rw [text, scanValue, if_neg (by decide), if_neg (by decide), if_pos rfl, quoted]
      split
      next here =>
        cases (List.cons.inj here).1
      · rw [others]
        rfl

/-- The items behind a first one. -/
theorem scanItems_print : ∀ (items : List (Json F)),
    (∀ part ∈ partsOfItems items, part.Scannable style constants) →
    ∀ (fuel : ℕ) (rest text : Text) (item : Json F),
      scanValue constants fuel text = .ok (item, printItems style items ++ rest) →
      weightOfItems items ≤ fuel →
      scanItems constants (fuel + 1) text = .ok (item :: rereadItems style items, rest)
  | [], _, fuel, rest, text, item, scanned, _ => by
      rw [scanItems, scanned, printItems]
      rfl
  | next :: items, scannable, fuel, rest, text, item, scanned, enough => by
      simp only [weightOfItems] at enough
      obtain ⟨fuel, rfl⟩ : ∃ less, fuel = less + 1 := ⟨fuel - 1, by omega⟩
      have first := scanValue_print next
        (fun part member => scannable part (List.mem_append_left _ member)) fuel
        (printItems style items ++ rest) (by omega) (stops_printItems style items rest)
      have others := scanItems_print items
        (fun part member => scannable part (List.mem_append_right _ member)) fuel rest
        (print style next ++ (printItems style items ++ rest)) (reread style next) first (by omega)
      rw [scanItems, scanned, printItems, style.itemSeparator_eq]
      simp only [List.cons_append, List.append_assoc]
      rw [skipSpace_cons (by decide)]
      simp only
      rw [skipSpace_blank_print, others]
      rfl

/-- The fields behind a first one. -/
theorem scanFields_print : ∀ (fields : List (Text × Json F)),
    (∀ part ∈ partsOfFields fields, part.Scannable style constants) →
    ∀ (fuel : ℕ) (rest key : Text) (value : Json F),
      (style.ensureAscii = true → ∀ c ∈ key, c < 0x110000) →
      scanValue constants fuel (print style value ++ (printFields style fields ++ rest)) =
        .ok (reread style value, printFields style fields ++ rest) →
      weightOfFields fields ≤ fuel →
      scanFields constants (fuel + 1) (fieldText style key value (printFields style fields ++ rest)) =
        .ok ((rejoin style.ensureAscii key, reread style value) :: rereadFields style fields, rest)
  | [], _, fuel, rest, key, value, encodable, scanned, _ => by
      rw [scanFields_field style encodable scanned, printFields]
      rfl
  | (next, inner) :: fields, scannable, fuel, rest, key, value, encodable, scanned, enough => by
      simp only [weightOfFields] at enough
      obtain ⟨fuel, rfl⟩ : ∃ less, fuel = less + 1 := ⟨fuel - 1, by omega⟩
      have first := scanValue_print inner
        (fun part member => scannable part (List.mem_cons_of_mem _ (List.mem_append_left _ member)))
        fuel (printFields style fields ++ rest) (by omega) (stops_printFields style fields rest)
      have others := scanFields_print fields
        (fun part member => scannable part (List.mem_cons_of_mem _ (List.mem_append_right _ member)))
        fuel rest next inner (scannable (.text next) List.mem_cons_self) first (by omega)
      have text : printFields style ((next, inner) :: fields) ++ rest =
          44 :: (style.blank ++ fieldText style next inner (printFields style fields ++ rest)) := by
        rw [printFields, fieldText, style.itemSeparator_eq]
        simp only [List.cons_append, List.append_assoc]
      have quoted : skipSpace (style.blank ++
          fieldText style next inner (printFields style fields ++ rest)) =
            fieldText style next inner (printFields style fields ++ rest) := by
        refine skipSpace_blank style fun c here => ?_
        obtain rfl : 34 = c := Option.some.inj here
        decide
      rw [scanFields_field style encodable scanned, text, skipSpace_cons (by decide)]
      simp only
      rw [quoted, others]
      rfl

end

mutual

/-- The reader has enough recursion for what was printed. -/
theorem weight_le_print : ∀ v : Json F, weight v ≤ 2 * (print style v).length
  | .null => by rw [print]; simp only [weight]; decide
  | .bool true => by rw [print]; simp only [weight]; decide
  | .bool false => by rw [print]; simp only [weight]; decide
  | .int n => by
      rw [print, NumberLiteral.text]
      have length : 0 < (intLiteral n).whole.length := natText_length_pos _
      simp only [weight, List.length_append]
      omega
  | .float x => by
      have whole := (floatLiteral_wellFormed (PyFloat.canonical x)).whole.1
      have length := List.length_pos_of_ne_nil whole
      rw [print, NumberLiteral.text]
      simp only [weight, List.length_append]
      omega
  | .nan => by rw [print]; simp only [weight]; decide
  | .infinity false => by rw [print]; simp only [weight]; decide
  | .infinity true => by rw [print]; simp only [weight]; decide
  | .str text => by
      rw [print, stringText]
      simp only [weight, List.length_cons]
      omega
  | .list [] => by rw [print]; simp only [weight, weightOfItems]; decide
  | .list (item :: items) => by
      have first := weight_le_print item
      have others := weightOfItems_le_print items
      rw [print]
      simp only [weight, weightOfItems, List.length_cons, List.length_append]
      omega
  | .object [] => by rw [print]; simp only [weight, weightOfFields]; decide
  | .object ((key, value) :: fields) => by
      have first := weight_le_print value
      have others := weightOfFields_le_print fields
      rw [print]
      simp only [weight, weightOfFields, List.length_cons, List.length_append]
      omega

theorem weightOfItems_le_print : ∀ items : List (Json F),
    weightOfItems items ≤ 2 * (printItems style items).length
  | [] => by rw [weightOfItems]; exact Nat.zero_le _
  | item :: items => by
      have first := weight_le_print item
      have others := weightOfItems_le_print items
      rw [printItems, style.itemSeparator_eq]
      simp only [weightOfItems, List.length_cons, List.length_append]
      omega

theorem weightOfFields_le_print : ∀ fields : List (Text × Json F),
    weightOfFields fields ≤ 2 * (printFields style fields).length
  | [] => by rw [weightOfFields]; exact Nat.zero_le _
  | (key, value) :: fields => by
      have first := weight_le_print value
      have others := weightOfFields_le_print fields
      rw [printFields, style.itemSeparator_eq]
      simp only [weightOfFields, List.length_cons, List.length_append]
      omega

end

variable {style constants}

/-- **The round trip**, up to escaped surrogates that make a pair. -/
theorem read_print_reread {v : Json F} (scannable : v.Scannable style constants) :
    read constants (print style v) = .ok (reread style v) := by
  obtain ⟨c, tail, text, visible, -⟩ := print_begins style v []
  have bare : skipSpace (print style v) = print style v := by
    rw [List.append_nil] at text
    rw [text]
    exact skipSpace_cons visible tail
  have scanned := scanValue_print style constants v scannable (2 * (print style v).length + 2) []
    (le_trans (weight_le_print style v) (Nat.le_add_right _ _)) stops_nil
  rw [List.append_nil] at scanned
  unfold read
  rw [bare, scanned]
  rfl

/-- **The round trip.** -/
theorem read_print {v : Json F} (readable : v.Readable style constants) :
    read constants (print style v) = .ok v := by
  rw [read_print_reread readable.scannable, reread_eq v readable]

/-- **A layout determines** the readable values it prints. -/
theorem print_injective {v w : Json F} (readable : v.Readable style constants)
    (other : w.Readable style constants) (same : print style v = print style w) : v = w := by
  have read := read_print readable
  rw [same, read_print other] at read
  exact (Except.ok.inj read).symm

end Json

end ImposbroSearch.Foundation
