import Mathlib.Algebra.Order.Field.Basic
import Mathlib.Algebra.Order.Ring.Rat
import Mathlib.Data.Nat.Digits.Lemmas
import Mathlib.Tactic.Ring
import Mathlib.Tactic.FieldSimp

/-!
# Numerals

Numbers in texts: the numerals of JSON, what a scanner makes of them, and what they are
worth. Texts are lists of code points.

A float is known here by its shortest decimal, the one that is printed and that is read
back as the same float. Printing puts that decimal into one of two layouts, with an
exponent or without; which other decimals are read as the float is left open, up to the
value of the decimal.
-/

namespace ImposbroSearch.Foundation

/-- A text, by its code points. -/
abbrev Text := List ℕ

def isDigit (c : ℕ) : Bool := 48 ≤ c && c ≤ 57

/-- A natural number in decimal. -/
def natText (n : ℕ) : Text := if n = 0 then [48] else (Nat.digits 10 n).reverse.map (· + 48)

/-- What a row of digits is worth. -/
def digitsValue (digits : Text) : ℕ := digits.foldl (fun n c => 10 * n + (c - 48)) 0

theorem foldl_digits (n : ℕ) (digits : Text) :
    digits.foldl (fun n c => 10 * n + (c - 48)) n = n * 10 ^ digits.length + digitsValue digits := by
  unfold digitsValue
  induction digits generalizing n with
  | nil => simp
  | cons c digits ih =>
      rw [List.foldl_cons, List.foldl_cons, ih, ih (10 * 0 + (c - 48)), List.length_cons]
      ring

theorem digitsValue_append (first second : Text) : digitsValue (first ++ second) =
    digitsValue first * 10 ^ second.length + digitsValue second := by
  conv_lhs => unfold digitsValue
  rw [List.foldl_append]
  exact foldl_digits (digitsValue first) second

theorem digitsValue_zeros (count : ℕ) : digitsValue (List.replicate count 48) = 0 := by
  induction count with
  | zero => rfl
  | succ count ih =>
      rw [List.replicate_succ', digitsValue_append, ih]
      rfl

theorem natText_all_digit (n : ℕ) : (natText n).all isDigit = true := by
  unfold natText
  split_ifs
  · rfl
  · refine List.all_eq_true.mpr fun c member => ?_
    obtain ⟨digit, listed, rfl⟩ := List.mem_map.mp member
    have small : digit < 10 := Nat.digits_lt_base (by norm_num) (List.mem_reverse.mp listed)
    unfold isDigit
    simp
    omega

theorem natText_ne_nil (n : ℕ) : natText n ≠ [] := by
  unfold natText
  split_ifs with zero
  · exact List.cons_ne_nil _ _
  · intro nothing
    rw [List.map_eq_nil_iff, List.reverse_eq_nil_iff] at nothing
    exact zero (Nat.digits_eq_nil_iff_eq_zero.mp nothing)

theorem digitsValue_natText (n : ℕ) : digitsValue (natText n) = n := by
  have reversed : ∀ digits : List ℕ,
      digitsValue (digits.reverse.map (· + 48)) = Nat.ofDigits 10 digits := by
    intro digits
    induction digits with
    | nil => rfl
    | cons digit digits ih =>
        rw [List.reverse_cons, List.map_append, digitsValue_append, ih, Nat.ofDigits_cons]
        simp [digitsValue]
        ring
  unfold natText
  split_ifs with zero
  · rw [zero]
    rfl
  · rw [reversed, Nat.ofDigits_digits]

/-- Only zero begins with a zero. -/
theorem natText_head (n : ℕ) : n = 0 ∨ ∃ c rest, natText n = c :: rest ∧ c ≠ 48 := by
  by_cases zero : n = 0
  · exact Or.inl zero
  · right
    unfold natText
    rw [if_neg zero]
    have some_ : Nat.digits 10 n ≠ [] := Nat.digits_ne_nil_iff_ne_zero.mpr zero
    have last := Nat.getLast_digit_ne_zero 10 zero
    rw [← List.dropLast_append_getLast some_, List.reverse_append, List.reverse_singleton,
      List.singleton_append, List.map_cons]
    exact ⟨_, _, rfl, by omega⟩

theorem natText_length_pos (n : ℕ) : 0 < (natText n).length :=
  List.length_pos_of_ne_nil (natText_ne_nil n)

/-- The number of digits says between which powers of ten a number lies. -/
theorem natText_length {n : ℕ} (positive : n ≠ 0) :
    10 ^ ((natText n).length - 1) ≤ n ∧ n < 10 ^ (natText n).length := by
  unfold natText
  rw [if_neg positive, List.length_map, List.length_reverse]
  have upper : n < 10 ^ (Nat.digits 10 n).length := Nat.lt_base_pow_length_digits (by norm_num)
  have lower : 10 ^ (Nat.digits 10 n).length ≤ 10 * n :=
    Nat.base_pow_length_digits_le 10 n (by norm_num) positive
  have some_ : Nat.digits 10 n ≠ [] := Nat.digits_ne_nil_iff_ne_zero.mpr positive
  obtain ⟨rest, length⟩ := Nat.exists_eq_succ_of_ne_zero
    (Nat.ne_of_gt (List.length_pos_of_ne_nil some_))
  rw [length] at lower upper ⊢
  rw [Nat.pow_succ] at lower
  refine ⟨?_, upper⟩
  rw [Nat.succ_sub_one]
  omega

theorem natText_length_le {width n : ℕ} (positive : 0 < width) (small : n < 10 ^ width) :
    (natText n).length ≤ width := by
  by_cases zero : n = 0
  · rw [zero]
    exact positive
  · by_contra long
    have lower := (natText_length zero).1
    have power : 10 ^ width ≤ 10 ^ ((natText n).length - 1) :=
      Nat.pow_le_pow_right (by norm_num) (by omega)
    omega

/-- A row of digits is worth less than the power of ten of its length. -/
theorem digitsValue_lt {digits : Text} (all : digits.all isDigit = true) :
    digitsValue digits < 10 ^ digits.length := by
  induction digits using List.reverseRecOn with
  | nil => decide
  | append_singleton digits c ih =>
      rw [List.all_append, Bool.and_eq_true] at all
      have front := ih all.1
      have digit : isDigit c = true := List.all_eq_true.mp all.2 c (List.mem_singleton_self c)
      unfold isDigit at digit
      simp only [Bool.and_eq_true, decide_eq_true_eq] at digit
      have last : digitsValue [c] = c - 48 := by simp [digitsValue]
      rw [digitsValue_append, last, List.length_append, List.length_singleton, pow_add, pow_one]
      omega

/-! ## Decimals -/

/-- A decimal: a sign, digits, and a power of ten. -/
structure Decimal where
  negative : Bool
  digits : ℕ
  exponent : ℤ
  deriving DecidableEq, Repr

/-- What the decimal is worth without its sign. -/
def Decimal.magnitude (d : Decimal) : ℚ := d.digits * (10 : ℚ) ^ d.exponent

theorem Decimal.magnitude_eq_zero {d : Decimal} : d.magnitude = 0 ↔ d.digits = 0 := by
  have power : (10 : ℚ) ^ d.exponent ≠ 0 := zpow_ne_zero _ (by norm_num)
  unfold Decimal.magnitude
  rw [mul_eq_zero, or_iff_left power, Nat.cast_eq_zero]

/-- No power of ten is left in the digits. -/
def Decimal.Canonical (d : Decimal) : Prop :=
  if d.digits = 0 then d.exponent = 0 else d.digits % 10 ≠ 0

instance (d : Decimal) : Decidable d.Canonical :=
  inferInstanceAs (Decidable (if d.digits = 0 then d.exponent = 0 else d.digits % 10 ≠ 0))

/-- Two decimals of one sign and one value. -/
def Decimal.Same (d e : Decimal) : Prop := d.negative = e.negative ∧ d.magnitude = e.magnitude

theorem Decimal.same_shift (negative : Bool) (digits shift : ℕ) (exponent : ℤ) :
    Decimal.Same ⟨negative, digits * 10 ^ shift, exponent - shift⟩
      ⟨negative, digits, exponent⟩ := by
  refine ⟨rfl, ?_⟩
  unfold Decimal.magnitude
  simp only
  rw [zpow_sub₀ (by norm_num), zpow_natCast]
  push_cast
  field_simp

/-- The finite floats of a format: how they are printed, which float a decimal is read
as, and what a float is worth exactly. A decimal beyond all floats is read as infinite. -/
class PyFloat (F : Type) where
  exact : F → ℚ
  decimal : F → Decimal
  nearest : Decimal → Option F
  asInteger : F → Option ℤ
  canonical : ∀ x, (decimal x).Canonical
  short : ∀ x, (natText (decimal x).digits).length ≤ 17
  nearest_congr : ∀ {d e : Decimal}, d.Same e → nearest d = nearest e
  nearest_decimal : ∀ x, nearest (decimal x) = some x
  nearest_negative : ∀ {d x}, nearest d = some x → (decimal x).negative = d.negative

theorem PyFloat.decimal_injective {F : Type} [PyFloat F] {x y : F}
    (same : PyFloat.decimal x = PyFloat.decimal y) : x = y := by
  have read : PyFloat.nearest (PyFloat.decimal x) = some y := by
    rw [same, PyFloat.nearest_decimal]
  rw [PyFloat.nearest_decimal] at read
  exact Option.some.inj read

/-! ## A format of four floats -/

/-- Both zeros, and `10 ^ 16` with either sign. -/
inductive SampleFloat where
  | zero (negative : Bool)
  | large (negative : Bool)
  deriving DecidableEq, Repr

namespace SampleFloat

/-- The decimal is worth `10 ^ 16`. -/
def isLarge (d : Decimal) : Bool :=
  d.digits * 10 ^ d.exponent.toNat = 10 ^ 16 * 10 ^ (-d.exponent).toNat

theorem isLarge_iff (d : Decimal) : isLarge d = true ↔ d.magnitude = 10 ^ 16 := by
  have exponent : d.exponent = (d.exponent.toNat : ℤ) - ((-d.exponent).toNat : ℤ) := by omega
  have magnitude : d.magnitude =
      d.digits * (10 : ℚ) ^ d.exponent.toNat / 10 ^ (-d.exponent).toNat := by
    unfold Decimal.magnitude
    conv_lhs => rw [exponent, zpow_sub₀ (by norm_num), zpow_natCast, zpow_natCast]
    rw [mul_div_assoc]
  rw [magnitude, div_eq_iff (pow_ne_zero _ (by norm_num)), isLarge, decide_eq_true_eq]
  exact_mod_cast Iff.rfl

instance : PyFloat SampleFloat where
  exact
    | zero _ => 0
    | large negative => if negative then -10 ^ 16 else 10 ^ 16
  decimal
    | zero negative => ⟨negative, 0, 0⟩
    | large negative => ⟨negative, 1, 16⟩
  nearest d :=
    if d.digits = 0 then some (zero d.negative)
    else if isLarge d then some (large d.negative)
    else none
  asInteger
    | zero _ => some 0
    | large negative => some (if negative then -10 ^ 16 else 10 ^ 16)
  canonical
    | zero _ => rfl
    | large _ => show 1 % 10 ≠ 0 by decide
  short
    | zero _ => show (natText 0).length ≤ 17 by decide
    | large _ => show (natText 1).length ≤ 17 by decide +kernel
  nearest_congr := by
    intro d e same
    have zero : d.digits = 0 ↔ e.digits = 0 := by
      rw [← Decimal.magnitude_eq_zero, same.2, Decimal.magnitude_eq_zero]
    have large : isLarge d = isLarge e := by
      rw [Bool.eq_iff_iff, isLarge_iff, isLarge_iff, same.2]
    simp only [zero, large, same.1]
  nearest_decimal x := by
    cases x with
    | zero negative => rfl
    | large negative => cases negative <;> decide +kernel
  nearest_negative := by
    intro d x read
    split_ifs at read
    · obtain rfl := Option.some.inj read
      rfl
    · obtain rfl := Option.some.inj read
      rfl

end SampleFloat
/-! ## Literals -/

/-- A numeral as JSON has it. -/
structure NumberLiteral where
  negative : Bool
  whole : Text
  fraction : Option Text
  exponent : Option (Bool × Text)
  deriving DecidableEq, Repr

namespace NumberLiteral

def text (literal : NumberLiteral) : Text :=
  (if literal.negative then [45] else []) ++ literal.whole ++
    (literal.fraction.elim [] (46 :: ·) ++
      literal.exponent.elim [] fun e => 101 :: (if e.1 then 45 else 43) :: e.2)

/-- A row of digits that is not empty. -/
def Digits (digits : Text) : Prop := digits ≠ [] ∧ digits.all isDigit = true

structure WellFormed (literal : NumberLiteral) : Prop where
  whole : Digits literal.whole
  leading : literal.whole = [48] ∨ literal.whole.head? ≠ some 48
  fraction : ∀ digits ∈ literal.fraction, Digits digits
  exponent : ∀ e ∈ literal.exponent, Digits e.2

/-- The decimal of a numeral. -/
def decimal (literal : NumberLiteral) : Decimal where
  negative := literal.negative
  digits := digitsValue (literal.whole ++ literal.fraction.getD [])
  exponent :=
    (literal.exponent.elim 0 fun e => if e.1 then -(digitsValue e.2 : ℤ) else digitsValue e.2) -
      (literal.fraction.getD []).length

/-- A numeral without fraction and exponent is an integer. -/
def isInteger (literal : NumberLiteral) : Bool :=
  literal.fraction.isNone && literal.exponent.isNone

end NumberLiteral

/-! ## Scanning -/

def scanWhole : Text → Option (Text × Text)
  | [] => none
  | c :: rest =>
    if c = 48 then some ([48], rest)
    else if isDigit c then some (c :: rest.takeWhile isDigit, rest.dropWhile isDigit)
    else none

def scanFraction : Text → Option Text × Text
  | 46 :: c :: rest =>
    if isDigit c then (some (c :: rest.takeWhile isDigit), rest.dropWhile isDigit)
    else (none, 46 :: c :: rest)
  | text => (none, text)

/-- The sign of an exponent. -/
def scanSign : Text → Bool × Text
  | 45 :: rest => (true, rest)
  | 43 :: rest => (false, rest)
  | rest => (false, rest)

def scanExponent : Text → Option (Bool × Text) × Text
  | [] => (none, [])
  | c :: rest =>
    if c = 101 ∨ c = 69 then
      if ((scanSign rest).2.takeWhile isDigit).isEmpty then (none, c :: rest)
      else (some ((scanSign rest).1, (scanSign rest).2.takeWhile isDigit),
        (scanSign rest).2.dropWhile isDigit)
    else (none, c :: rest)

/-- `(-?(?:0|[1-9]\d*))(\.\d+)?([eE][-+]?\d+)?` -/
def scanNumber (text : Text) : Option (NumberLiteral × Text) :=
  let negative := text.head? = some 45
  match scanWhole (if negative then text.tail else text) with
  | none => none
  | some (whole, rest) =>
    let (fraction, rest) := scanFraction rest
    let (exponent, rest) := scanExponent rest
    some (⟨negative, whole, fraction, exponent⟩, rest)

/-- A numeral ends here. -/
def Stops (rest : Text) : Prop :=
  ∀ c ∈ rest.head?, isDigit c = false ∧ c ≠ 46 ∧ c ≠ 101 ∧ c ≠ 69

theorem stops_nil : Stops [] := by
  intro c here
  cases here

theorem stops_cons {c : ℕ} {rest : Text} (digit : isDigit c = false) (point : c ≠ 46)
    (lower : c ≠ 101) (upper : c ≠ 69) : Stops (c :: rest) := by
  intro other here
  obtain rfl := Option.some.inj here
  exact ⟨digit, point, lower, upper⟩

/-- The digits end where the rest begins with none. -/
theorem takeWhile_digits {digits rest : Text} (all : digits.all isDigit = true)
    (stop : ∀ c ∈ rest.head?, isDigit c = false) :
    (digits ++ rest).takeWhile isDigit = digits ∧ (digits ++ rest).dropWhile isDigit = rest := by
  rw [List.takeWhile_append_of_pos (List.all_eq_true.mp all),
    List.dropWhile_append_of_pos (List.all_eq_true.mp all)]
  cases rest with
  | nil => exact ⟨List.append_nil _, rfl⟩
  | cons c rest =>
      have none : isDigit c = false := stop c rfl
      rw [List.takeWhile_cons_of_neg (by simp [none]), List.dropWhile_cons_of_neg (by simp [none])]
      exact ⟨List.append_nil _, rfl⟩

theorem scanWhole_append {whole rest : Text} (digits : NumberLiteral.Digits whole)
    (leading : whole = [48] ∨ whole.head? ≠ some 48) (stop : ∀ c ∈ rest.head?, isDigit c = false) :
    scanWhole (whole ++ rest) = some (whole, rest) := by
  obtain ⟨nonempty, all⟩ := digits
  cases whole with
  | nil => exact absurd rfl nonempty
  | cons c whole =>
      rw [List.all_cons, Bool.and_eq_true] at all
      obtain ⟨first, others⟩ := all
      unfold scanWhole
      rw [List.cons_append]
      simp only
      by_cases zero : c = 48
      · subst zero
        rcases leading with single | other
        · obtain rfl := (List.cons.inj single).2
          rw [if_pos rfl]
          rfl
        · exact absurd rfl other
      · obtain ⟨taken, left⟩ := takeWhile_digits others stop
        rw [if_neg zero, if_pos first, taken, left]

theorem scanFraction_none {rest : Text} (stop : ∀ c ∈ rest.head?, c ≠ 46) :
    scanFraction rest = (none, rest) := by
  unfold scanFraction
  split
  · exact absurd rfl (stop 46 rfl)
  · rfl

theorem scanFraction_some {digits rest : Text} (row : NumberLiteral.Digits digits)
    (stop : ∀ c ∈ rest.head?, isDigit c = false) :
    scanFraction (46 :: (digits ++ rest)) = (some digits, rest) := by
  obtain ⟨nonempty, all⟩ := row
  cases digits with
  | nil => exact absurd rfl nonempty
  | cons c digits =>
      rw [List.all_cons, Bool.and_eq_true] at all
      obtain ⟨first, others⟩ := all
      obtain ⟨taken, left⟩ := takeWhile_digits others stop
      rw [List.cons_append]
      unfold scanFraction
      simp only
      rw [if_pos first, taken, left]

theorem scanExponent_none {rest : Text} (stop : ∀ c ∈ rest.head?, c ≠ 101 ∧ c ≠ 69) :
    scanExponent rest = (none, rest) := by
  cases rest with
  | nil => rfl
  | cons c rest =>
      unfold scanExponent
      simp only
      rw [if_neg]
      rintro (lower | upper)
      · exact (stop c rfl).1 lower
      · exact (stop c rfl).2 upper

theorem scanExponent_some {negative : Bool} {digits rest : Text}
    (row : NumberLiteral.Digits digits) (stop : ∀ c ∈ rest.head?, isDigit c = false) :
    scanExponent (101 :: (if negative then 45 else 43) :: (digits ++ rest)) =
      (some (negative, digits), rest) := by
  obtain ⟨nonempty, all⟩ := row
  obtain ⟨taken, left⟩ := takeWhile_digits all stop
  have sign : scanSign ((if negative then 45 else 43) :: (digits ++ rest)) =
      (negative, digits ++ rest) := by
    cases negative with
    | false => rfl
    | true => rfl
  unfold scanExponent
  simp only
  rw [if_pos (Or.inl trivial), sign]
  simp only
  rw [taken, left, if_neg]
  simpa using nonempty

/-- **Scanning** a printed numeral gives it back, up to where it ends. -/
theorem scanNumber_text {literal : NumberLiteral} (formed : literal.WellFormed) {rest : Text}
    (stop : Stops rest) : scanNumber (literal.text ++ rest) = some (literal, rest) := by
  obtain ⟨negative, whole, fraction, exponent⟩ := literal
  obtain ⟨digits, leading, fractionDigits, exponentDigits⟩ := formed
  simp only at digits leading fractionDigits exponentDigits
  -- what follows the digits before the point, and what follows those behind it
  let behind := exponent.elim [] (fun e => 101 :: (if e.1 then 45 else 43) :: e.2) ++ rest
  let after := fraction.elim [] (46 :: ·) ++ behind
  have behindStops : ∀ c ∈ behind.head?, isDigit c = false ∧ c ≠ 46 := by
    intro c here
    cases exponent with
    | none => exact ⟨(stop c here).1, (stop c here).2.1⟩
    | some e =>
        obtain rfl : 101 = c := Option.some.inj here
        decide
  have afterStops : ∀ c ∈ after.head?, isDigit c = false := by
    intro c here
    cases fraction with
    | none => exact (behindStops c here).1
    | some digits =>
        obtain rfl : 46 = c := Option.some.inj here
        decide
  have scannedFraction : scanFraction after = (fraction, behind) := by
    cases fraction with
    | none => exact scanFraction_none fun c here => (behindStops c here).2
    | some digits =>
        exact scanFraction_some (fractionDigits digits rfl) fun c here => (behindStops c here).1
  have scannedExponent : scanExponent behind = (exponent, rest) := by
    cases exponent with
    | none => exact scanExponent_none fun c here => (stop c here).2.2
    | some e =>
        exact scanExponent_some (exponentDigits e rfl) fun c here => (stop c here).1
  have written : NumberLiteral.text ⟨negative, whole, fraction, exponent⟩ ++ rest =
      (if negative then [45] else []) ++ (whole ++ after) := by
    unfold NumberLiteral.text
    simp only [after, behind, List.append_assoc]
  have unsigned : (whole ++ after).head? ≠ some 45 := by
    obtain ⟨nonempty, all⟩ := digits
    cases whole with
    | nil => exact absurd rfl nonempty
    | cons c whole =>
        intro minus
        obtain rfl : c = 45 := Option.some.inj minus
        rw [List.all_cons] at all
        exact absurd (Bool.and_eq_true_iff.mp all).1 (by decide)
  have scannedWhole := scanWhole_append digits leading afterStops
  rw [written]
  unfold scanNumber
  cases negative with
  | false =>
      simp only [if_false, Bool.false_eq_true, List.nil_append, unsigned, decide_false]
      rw [scannedWhole]
      simp only
      rw [scannedFraction]
      simp only
      rw [scannedExponent]
  | true =>
      simp only [if_true, List.singleton_append, List.head?_cons, decide_true, List.tail_cons]
      rw [scannedWhole]
      simp only
      rw [scannedFraction]
      simp only
      rw [scannedExponent]

/-! ## Printing -/

/-- `int.__repr__` -/
def intLiteral (n : ℤ) : NumberLiteral := ⟨n < 0, natText n.natAbs, none, none⟩

/-- How many digits stand before the point, when that is positive. -/
def Decimal.point (d : Decimal) : ℤ := (natText d.digits).length + d.exponent

/-- An exponent has two digits at least. -/
def exponentText (n : ℕ) : Text := if n < 10 then 48 :: natText n else natText n

/-- `float.__repr__` of the float with this shortest decimal. -/
def floatLiteral (d : Decimal) : NumberLiteral :=
  let row := natText d.digits
  if -4 < d.point ∧ d.point ≤ 16 then
    if d.point ≤ 0 then
      ⟨d.negative, [48], some (List.replicate (-d.point).toNat 48 ++ row), none⟩
    else if d.point < row.length then
      ⟨d.negative, row.take d.point.toNat, some (row.drop d.point.toNat), none⟩
    else ⟨d.negative, row ++ List.replicate (d.point.toNat - row.length) 48, some [48], none⟩
  else
    ⟨d.negative, row.take 1, if row.length = 1 then none else some (row.drop 1),
      some (d.point - 1 < 0, exponentText (d.point - 1).natAbs)⟩

theorem digits_natText (n : ℕ) : NumberLiteral.Digits (natText n) :=
  ⟨natText_ne_nil n, natText_all_digit n⟩

theorem leading_natText (n : ℕ) : natText n = [48] ∨ (natText n).head? ≠ some 48 := by
  rcases natText_head n with rfl | ⟨c, rest, text, other⟩
  · exact Or.inl rfl
  · right
    rw [text]
    exact fun same => other (Option.some.inj same)

theorem digits_zeros_append (count : ℕ) {digits : Text} (row : NumberLiteral.Digits digits) :
    NumberLiteral.Digits (List.replicate count 48 ++ digits) := by
  refine ⟨fun nothing => row.1 (List.append_eq_nil_iff.mp nothing).2, ?_⟩
  rw [List.all_append, row.2, Bool.and_true, List.all_eq_true]
  intro c member
  rw [List.eq_of_mem_replicate member]
  rfl

theorem digits_exponentText (n : ℕ) : NumberLiteral.Digits (exponentText n) := by
  unfold exponentText
  split_ifs
  · exact digits_zeros_append 1 (digits_natText n)
  · exact digits_natText n

theorem digitsValue_exponentText (n : ℕ) : digitsValue (exponentText n) = n := by
  unfold exponentText
  split_ifs
  · refine (digitsValue_append [48] (natText n)).trans ?_
    rw [digitsValue_natText]
    simp [digitsValue]
  · exact digitsValue_natText n

theorem intLiteral_wellFormed (n : ℤ) : (intLiteral n).WellFormed where
  whole := digits_natText _
  leading := leading_natText _
  fraction := by simp [intLiteral]
  exponent := by simp [intLiteral]

/-- A part of a row of digits. -/
theorem NumberLiteral.Digits.of_all {digits : Text} (nonempty : digits ≠ [])
    (all : ∀ c ∈ digits, isDigit c = true) : NumberLiteral.Digits digits :=
  ⟨nonempty, List.all_eq_true.mpr all⟩

section Float

variable {d : Decimal}

theorem floatLiteral_wellFormed (canonical : d.Canonical) : (floatLiteral d).WellFormed := by
  have all := List.all_eq_true.mp (natText_all_digit d.digits)
  have length := natText_length_pos d.digits
  have head : ∀ count, 0 < count → ((natText d.digits).take count).head? =
      (natText d.digits).head? := by
    intro count positive
    rw [List.head?_take, if_neg (Nat.ne_of_gt positive)]
  -- a part of the row that begins with its first digit, which is zero for zero only
  have leading : ∀ count, 0 < count → (d.digits = 0 → (natText d.digits).take count = [48]) →
      (natText d.digits).take count = [48] ∨ ((natText d.digits).take count).head? ≠ some 48 := by
    intro count positive zero
    rcases leading_natText d.digits with single | other
    · rcases natText_head d.digits with none | ⟨c, rest, text, differs⟩
      · exact Or.inl (zero none)
      · rw [text] at single
        exact absurd (List.cons.inj single).1 differs
    · exact Or.inr (by rw [head count positive]; exact other)
  have taken : ∀ count, 0 < count → NumberLiteral.Digits ((natText d.digits).take count) := by
    intro count positive
    refine .of_all ?_ fun c member => all c (List.mem_of_mem_take member)
    intro nothing
    have lengths := congrArg List.length nothing
    rw [List.length_take, List.length_nil] at lengths
    omega
  have dropped : ∀ count, count < (natText d.digits).length →
      NumberLiteral.Digits ((natText d.digits).drop count) := by
    intro count small
    refine .of_all ?_ fun c member => all c (List.mem_of_mem_drop member)
    exact fun nothing => absurd (List.drop_eq_nil_iff.mp nothing) (by omega)
  have zeroPoint : d.digits = 0 → d.point = 1 ∧ (natText d.digits).length = 1 := by
    intro zero
    unfold Decimal.Canonical at canonical
    rw [if_pos zero] at canonical
    unfold Decimal.point
    rw [canonical, zero]
    exact ⟨rfl, rfl⟩
  unfold floatLiteral
  simp only
  split_ifs with plain small inside
  · exact ⟨⟨List.cons_ne_nil _ _, rfl⟩, Or.inl rfl,
      fun digits here => Option.some.inj here ▸ digits_zeros_append _ (digits_natText _), by simp⟩
  · refine ⟨taken _ (by omega), leading _ (by omega) ?_, ?_, by simp⟩
    · intro zero
      have := zeroPoint zero
      omega
    · rintro digits here
      obtain rfl := Option.some.inj here
      exact dropped _ (by omega)
  · refine ⟨.of_all ?_ ?_, ?_, ?_, by simp⟩
    · exact fun nothing => natText_ne_nil _ (List.append_eq_nil_iff.mp nothing).1
    · intro c member
      rcases List.mem_append.mp member with within | zero
      · exact all c within
      · rw [List.eq_of_mem_replicate zero]
        rfl
    · rcases natText_head d.digits with zero | ⟨c, rest, text, differs⟩
      · left
        rw [(zeroPoint zero).1, zero]
        rfl
      · right
        rw [text]
        exact fun same => differs (Option.some.inj same)
    · rintro digits here
      obtain rfl := Option.some.inj here
      exact ⟨List.cons_ne_nil _ _, rfl⟩
  · exact ⟨taken 1 Nat.one_pos, leading 1 Nat.one_pos fun zero => by rw [zero]; rfl, by simp,
      fun e here => Option.some.inj here ▸ digits_exponentText _⟩
  · refine ⟨taken 1 Nat.one_pos, leading 1 Nat.one_pos fun zero => by rw [zero]; rfl, ?_,
      fun e here => Option.some.inj here ▸ digits_exponentText _⟩
    rintro digits here
    obtain rfl := Option.some.inj here
    exact dropped 1 (by omega)

end Float

/-- **A printed float** is worth its decimal. -/
theorem floatLiteral_same (d : Decimal) : (floatLiteral d).decimal.Same d := by
  have value := digitsValue_natText d.digits
  have length := natText_length_pos d.digits
  have point : d.point = (natText d.digits).length + d.exponent := rfl
  have whole : ∀ (digits : ℕ) (exponent : ℤ), digits = d.digits → exponent = d.exponent →
      Decimal.Same ⟨d.negative, digits, exponent⟩ d := by
    rintro digits exponent rfl rfl
    exact ⟨rfl, rfl⟩
  unfold floatLiteral
  simp only
  split_ifs with plain small inside single
  · refine whole _ _ ?_ ?_
    · show digitsValue ([48] ++ (List.replicate _ 48 ++ natText d.digits)) = d.digits
      rw [digitsValue_append, digitsValue_append, digitsValue_zeros, value]
      simp [digitsValue]
    · simp
      omega
  · refine whole _ _ ?_ ?_
    · show digitsValue ((natText d.digits).take _ ++ (natText d.digits).drop _) = d.digits
      rw [List.take_append_drop, value]
    · simp
      omega
  · have shift := Decimal.same_shift d.negative d.digits
      (d.point.toNat - (natText d.digits).length + 1) d.exponent
    have digits : digitsValue ((natText d.digits ++ List.replicate (d.point.toNat -
        (natText d.digits).length) 48) ++ [48]) =
          d.digits * 10 ^ (d.point.toNat - (natText d.digits).length + 1) := by
      rw [List.append_assoc, digitsValue_append, value, digitsValue_append, digitsValue_zeros]
      simp [digitsValue]
    have exponent : d.exponent - ((d.point.toNat - (natText d.digits).length + 1 : ℕ) : ℤ) = -1 := by
      omega
    rw [exponent, ← digits] at shift
    exact shift
  · refine whole _ _ ?_ ?_
    · show digitsValue ((natText d.digits).take 1 ++ []) = d.digits
      rw [List.append_nil, List.take_of_length_le single.le, value]
    · simp only [Option.elim_some, digitsValue_exponentText,
        decide_eq_true_eq, Option.getD_none, List.length_nil]
      split_ifs
      · omega
      · omega
  · refine whole _ _ ?_ ?_
    · show digitsValue ((natText d.digits).take 1 ++ (natText d.digits).drop 1) = d.digits
      rw [List.take_append_drop, value]
    · simp only [Option.elim_some, digitsValue_exponentText,
        decide_eq_true_eq, Option.getD_some, List.length_drop]
      split_ifs
      · omega
      · omega

/-- A printed float has a point or an exponent. -/
theorem floatLiteral_not_integer (d : Decimal) : (floatLiteral d).isInteger = false := by
  unfold floatLiteral
  simp only
  split_ifs
  all_goals rfl

end ImposbroSearch.Foundation
