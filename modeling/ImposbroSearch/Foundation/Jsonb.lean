import ImposbroSearch.Foundation.JsonObjects

/-!
# JSON in Postgres

What a `JSONB` column makes of a value. Its numbers are exact decimals, which know how many
digits stand behind the point but not that a float was meant, and which have one zero. Its
objects have their keys in an order of their own: by length, then by their bytes. Constants,
NUL and lone surrogates are refused.

A stored value is printed without exponents and read again. Everything comes back but two
kinds of floats: a negative zero has lost its sign, and a float that is printed with a large
exponent has become an integer.
-/

namespace ImposbroSearch.Foundation

/-! ## Numbers -/

/-- An exact decimal: its digits, of which `scale` stand behind the point. -/
structure Numeric where
  negative : Bool
  digits : ℕ
  scale : ℕ
  deriving DecidableEq, Repr

namespace Numeric

/-- `numeric_in`: the exponent moves the point, and zero has no sign. -/
def ofDecimal (d : Decimal) : Numeric where
  negative := d.negative && d.digits ≠ 0
  digits := d.digits * 10 ^ d.exponent.toNat
  scale := (-d.exponent).toNat

/-- The digits, with one before the point at least. -/
def row (n : Numeric) : Text :=
  List.replicate (n.scale + 1 - (natText n.digits).length) 48 ++ natText n.digits

/-- `numeric_out` -/
def literal (n : Numeric) : NumberLiteral where
  negative := n.negative
  whole := n.row.take (n.row.length - n.scale)
  fraction := if n.scale = 0 then none else some (n.row.drop (n.row.length - n.scale))
  exponent := none

/-- Zero has no sign. -/
def WellFormed (n : Numeric) : Prop := n.digits = 0 → n.negative = false

instance (n : Numeric) : Decidable n.WellFormed := inferInstanceAs (Decidable (_ → _))

theorem ofDecimal_wellFormed (d : Decimal) : (ofDecimal d).WellFormed := by
  intro zero
  have none : d.digits = 0 := by
    rcases Nat.mul_eq_zero.mp zero with digits | power
    · exact digits
    · exact absurd power (Nat.ne_of_gt (Nat.pow_pos (by norm_num)))
  unfold ofDecimal
  simp [none]

theorem digitsValue_row (n : Numeric) : digitsValue n.row = n.digits := by
  unfold row
  rw [digitsValue_append, digitsValue_zeros, digitsValue_natText]
  simp

theorem row_length (n : Numeric) : n.scale + 1 ≤ n.row.length := by
  unfold row
  rw [List.length_append, List.length_replicate]
  omega

theorem literal_isInteger (n : Numeric) : n.literal.isInteger = decide (n.scale = 0) := by
  unfold literal NumberLiteral.isInteger
  simp only
  split_ifs with integer
  · simp [integer]
  · simp [integer]

/-- The text of a stored number is worth the number. -/
theorem literal_decimal (n : Numeric) : n.literal.decimal = ⟨n.negative, n.digits, -n.scale⟩ := by
  have length := n.row_length
  unfold literal NumberLiteral.decimal
  by_cases integer : n.scale = 0
  · simp [integer, digitsValue_row]
  · have kept : min n.scale n.row.length = n.scale := by omega
    simp only [integer, if_false, Option.getD_some, List.take_append_drop, digitsValue_row,
      Option.elim_none, List.length_drop]
    congr 1
    omega

theorem ofDecimal_int (n : ℤ) :
    ofDecimal (intLiteral n).decimal = ⟨decide (n < 0), n.natAbs, 0⟩ := by
  unfold ofDecimal intLiteral NumberLiteral.decimal
  simp [digitsValue_natText]
  omega

/-- An integer is printed as before. -/
theorem literal_ofDecimal_int (n : ℤ) :
    (ofDecimal (intLiteral n).decimal).literal = intLiteral n := by
  have length := natText_length_pos n.natAbs
  have row : row ⟨decide (n < 0), n.natAbs, 0⟩ = natText n.natAbs := by
    show List.replicate (0 + 1 - (natText n.natAbs).length) 48 ++ natText n.natAbs = _
    rw [Nat.sub_eq_zero_of_le (by omega), List.replicate_zero, List.nil_append]
  rw [ofDecimal_int]
  unfold literal
  rw [row]
  simp [intLiteral]

/-- A number without digits behind the point is that of an integer. -/
theorem ofDecimal_whole {n : Numeric} (formed : n.WellFormed) (whole : n.scale = 0) :
    ofDecimal (intLiteral (if n.negative then -(n.digits : ℤ) else n.digits)).decimal = n := by
  obtain ⟨negative, digits, scale⟩ := n
  obtain rfl : scale = 0 := whole
  rw [ofDecimal_int]
  cases negative with
  | false => simp
  | true =>
      have positive : digits ≠ 0 := fun zero => Bool.noConfusion (formed zero)
      simp
      omega

end Numeric

/-- What the numeral of a float is worth has digits behind the point, unless the numeral
has a large exponent. -/
theorem floatLiteral_exponent_neg {d : Decimal} (short : (natText d.digits).length ≤ 17) :
    (floatLiteral d).decimal.exponent < 0 ↔ d.point ≤ 16 := by
  have length := natText_length_pos d.digits
  have point : d.point = (natText d.digits).length + d.exponent := rfl
  unfold floatLiteral
  simp only
  split_ifs with plain small inside single
  all_goals
    simp only [NumberLiteral.decimal, Option.elim_none, Option.elim_some, Option.getD_some,
      Option.getD_none, List.length_append, List.length_replicate, List.length_drop,
      List.length_cons, List.length_nil, digitsValue_exponentText, decide_eq_true_eq]
  · omega
  · omega
  · omega
  · split_ifs
    · omega
    · omega
  · split_ifs
    · omega
    · omega

/-- A float that storage does not change: no negative zero, and none that is printed with
a large exponent. -/
def PyFloat.Kept {F : Type} [PyFloat F] (x : F) : Prop :=
  ((PyFloat.decimal x).negative = true → (PyFloat.decimal x).digits ≠ 0) ∧
    (PyFloat.decimal x).point ≤ 16

instance {F : Type} [PyFloat F] (x : F) : Decidable (PyFloat.Kept x) :=
  inferInstanceAs (Decidable (_ ∧ _))

namespace Json

variable {F : Type} [PyFloat F]

/-- A stored number, read by the driver. -/
def ofNumeric (n : Numeric) : Json F :=
  match ofLiteral n.literal with
  | .ok v => v
  | .error _ => .null

theorem ofNumeric_int {n : ℤ} (short : (natText n.natAbs).length ≤ maxStrDigits) :
    ofNumeric (F := F) (.ofDecimal (intLiteral n).decimal) = .int n := by
  unfold ofNumeric
  rw [Numeric.literal_ofDecimal_int, ofLiteral_int short]

/-- A stored number with a fraction is read as the float it is nearest to. -/
theorem ofNumeric_fraction {n : Numeric} (fraction : n.scale ≠ 0) :
    ofNumeric (F := F) n = match PyFloat.nearest ⟨n.negative, n.digits, -n.scale⟩ with
      | some x => .float x
      | none => .infinity n.negative := by
  unfold ofNumeric ofLiteral
  rw [n.literal_isInteger, n.literal_decimal, decide_eq_false fraction, if_neg Bool.false_ne_true]
  cases PyFloat.nearest (F := F) ⟨n.negative, n.digits, -n.scale⟩ with
  | none => rfl
  | some x => rfl

/-- A stored number without a fraction is no float. -/
theorem ofNumeric_whole {n : Numeric} (whole : n.scale = 0) (x : F) : ofNumeric n ≠ .float x := by
  unfold ofNumeric ofLiteral
  rw [n.literal_isInteger, decide_eq_true whole, if_pos rfl]
  split_ifs
  all_goals exact fun same => nomatch same

/-- **A stored float** is read as itself exactly when storage keeps it. -/
theorem ofNumeric_float (x : F) :
    ofNumeric (.ofDecimal (floatLiteral (PyFloat.decimal x)).decimal) = .float x ↔ PyFloat.Kept x := by
  let literal := (floatLiteral (PyFloat.decimal x)).decimal
  have same : literal.Same (PyFloat.decimal x) := floatLiteral_same _
  have small : literal.exponent < 0 ↔ (PyFloat.decimal x).point ≤ 16 :=
    floatLiteral_exponent_neg (PyFloat.short x)
  have zero : literal.digits = 0 ↔ (PyFloat.decimal x).digits = 0 := by
    rw [← Decimal.magnitude_eq_zero, same.2, Decimal.magnitude_eq_zero]
  have read : PyFloat.nearest literal = some x := by
    rw [PyFloat.nearest_congr same, PyFloat.nearest_decimal]
  show ofNumeric (.ofDecimal literal) = .float x ↔ PyFloat.Kept x
  by_cases plain : literal.exponent < 0
  · -- the stored number is the decimal itself, but for the sign of zero
    have stored : Numeric.ofDecimal literal =
        ⟨literal.negative && literal.digits ≠ 0, literal.digits, (-literal.exponent).toNat⟩ := by
      unfold Numeric.ofDecimal
      rw [Int.toNat_of_nonpos plain.le, Nat.pow_zero, Nat.mul_one]
    rw [stored, ofNumeric_fraction (by simp; omega)]
    have exponent : (-(((-literal.exponent).toNat : ℕ) : ℤ)) = literal.exponent := by omega
    simp only [exponent]
    by_cases negativeZero : literal.negative = true ∧ literal.digits = 0
    · -- the sign of the zero is lost
      have unkept : ¬PyFloat.Kept x := fun kept =>
        kept.1 (same.1 ▸ negativeZero.1) (zero.mp negativeZero.2)
      rw [iff_false_right unkept]
      split
      next y found =>
        rintro ⟨⟩
        have positive := PyFloat.nearest_negative found
        rw [← same.1, negativeZero.1] at positive
        simp [negativeZero.2] at positive
      · exact fun same => nomatch same
    · have sign : (literal.negative && decide (literal.digits ≠ 0)) = literal.negative := by
        cases negative : literal.negative with
        | false => rfl
        | true => simpa [negative] using negativeZero
      rw [sign, read]
      exact iff_of_true rfl ⟨fun negative none =>
        negativeZero ⟨same.1.trans negative, zero.mpr none⟩, small.mp plain⟩
  · rw [iff_false_intro (ofNumeric_whole (by simp [Numeric.ofDecimal]; omega) x), false_iff]
    exact fun kept => plain (small.mpr kept.2)

end Json

/-! ## Values -/

/-- Two readings of numbers agree on a part. -/
def JsonPart.Agree {F G : Type} (toInt otherInt : ℤ → Json G) (toFloat otherFloat : F → Json G) :
    JsonPart F → Prop
  | .int n => toInt n = otherInt n
  | .float x => toFloat x = otherFloat x
  | _ => True

namespace Json

section Numbers

variable {F G : Type} (int : ℤ → Json G) (float : F → Json G)

mutual

/-- The value with other numbers. -/
def mapNumbers : Json F → Json G
  | .null => .null
  | .bool value => .bool value
  | .int n => int n
  | .float x => float x
  | .nan => .nan
  | .infinity negative => .infinity negative
  | .str text => .str text
  | .list items => .list (mapNumbersOfItems items)
  | .object fields => .object (mapNumbersOfFields fields)

def mapNumbersOfItems : List (Json F) → List (Json G)
  | [] => []
  | item :: items => mapNumbers item :: mapNumbersOfItems items

def mapNumbersOfFields : List (Text × Json F) → List (Text × Json G)
  | [] => []
  | (key, value) :: fields => (key, mapNumbers value) :: mapNumbersOfFields fields

end

variable {int float}

theorem mapNumbers_list (items : List (Json F)) :
    mapNumbers int float (.list items) = .list (items.map (mapNumbers int float)) := by
  have same : ∀ items, mapNumbersOfItems int float items = items.map (mapNumbers int float) := by
    intro items
    induction items with
    | nil => rfl
    | cons item items ih => rw [mapNumbersOfItems, ih, List.map_cons]
  rw [mapNumbers, same]

theorem mapNumbers_object (fields : List (Text × Json F)) : mapNumbers int float (.object fields) =
    .object (fields.map fun field => (field.1, mapNumbers int float field.2)) := by
  have same : ∀ fields, mapNumbersOfFields int float fields =
      fields.map fun field => (field.1, mapNumbers int float field.2) := by
    intro fields
    induction fields with
    | nil => rfl
    | cons field fields ih =>
        obtain ⟨key, value⟩ := field
        rw [mapNumbersOfFields, ih, List.map_cons]
  rw [mapNumbers, same]

/-- Numbers have no keys. -/
theorem mapNumbers_orderKeys {le : Text → Text → Prop} [DecidableRel le]
    (ints : ∀ n, orderKeys le (int n) = int n) (floats : ∀ x, orderKeys le (float x) = float x)
    (v : Json F) :
    mapNumbers int float (orderKeys le v) = orderKeys le (mapNumbers int float v) := by
  induction v using nestedInduction with
  | int n => exact (ints n).symm
  | float x => exact (floats x).symm
  | list items ih =>
      rw [orderKeys_list, mapNumbers_list, mapNumbers_list, orderKeys_list, List.map_map,
        List.map_map]
      exact congrArg list (List.map_congr_left ih)
  | object fields ih =>
      rw [orderKeys_object, mapNumbers_object, mapNumbers_object, orderKeys_object, List.map_map]
      have inside : (fields.map fun field => (field.1, orderKeys le field.2)).map
          (fun field => (field.1, mapNumbers int float field.2)) =
            fields.map fun field => (field.1, orderKeys le (mapNumbers int float field.2)) := by
        rw [List.map_map]
        exact List.map_congr_left fun field member => Prod.ext rfl (ih field member)
      refine congrArg object ((List.map_insertionSort
        (fun first second : Text × Json F => le first.1 second.1)
        (fun first second : Text × Json G => le first.1 second.1) _ _
        fun _ _ _ _ => Iff.rfl).trans ?_)
      rw [inside]
      rfl
  | _ => rfl

theorem mapNumbers_mapNumbers {H : Type} {int' : ℤ → Json H} {float' : G → Json H} (v : Json F) :
    mapNumbers int' float' (mapNumbers int float v) =
      mapNumbers (mapNumbers int' float' ∘ int) (mapNumbers int' float' ∘ float) v := by
  induction v using nestedInduction with
  | list items ih =>
      rw [mapNumbers_list, mapNumbers_list, mapNumbers_list, List.map_map]
      exact congrArg list (List.map_congr_left ih)
  | object fields ih =>
      rw [mapNumbers_object, mapNumbers_object, mapNumbers_object, List.map_map]
      exact congrArg object
        (List.map_congr_left fun field member => Prod.ext rfl (ih field member))
  | _ => rfl

/-- **Two readings of a value** are one exactly when they agree on each of its parts. -/
theorem mapNumbers_eq_iff {int' : ℤ → Json G} {float' : F → Json G} {v : Json F} :
    mapNumbers int float v = mapNumbers int' float' v ↔
      ∀ part ∈ v.parts, part.Agree int int' float float' := by
  induction v using nestedInduction with
  | list items ih =>
      rw [mapNumbers_list, mapNumbers_list, list.injEq, List.map_inj_left, forall_parts_list]
      exact forall₂_congr ih
  | object fields ih =>
      rw [mapNumbers_object, mapNumbers_object, object.injEq, List.map_inj_left,
        forall_parts_object]
      refine Iff.trans (forall₂_congr fun field member => ?_) (and_iff_right trivial).symm
      rw [Prod.mk.injEq, ih field member]
      exact and_congr_left fun _ => iff_of_true rfl trivial
  | _ => simp [mapNumbers, parts, JsonPart.Agree]

/-- Numbers that stay as they are. -/
theorem mapNumbers_self {v : Json F} : mapNumbers .int .float v = v := by
  induction v using nestedInduction with
  | list items ih =>
      rw [mapNumbers_list, map_eq_self ih]
  | object fields ih =>
      rw [mapNumbers_object, map_values_eq_self ih]
  | _ => rfl

theorem keys_mapNumbers (fields : List (Text × Json F)) :
    (fields.map fun field => (field.1, mapNumbers int float field.2)).map Prod.fst =
      fields.map Prod.fst := by
  rw [List.map_map]
  rfl

/-- What holds of the parts of a value holds of the parts with other numbers. -/
theorem forall_parts_mapNumbers {P : JsonPart F → Prop} {Q : JsonPart G → Prop}
    (ints : ∀ n, P (.int n) → ∀ part ∈ (int n).parts, Q part)
    (floats : ∀ x, P (.float x) → ∀ part ∈ (float x).parts, Q part)
    (constants : P .constant → Q .constant) (texts : ∀ text, P (.text text) → Q (.text text))
    (keys : ∀ listed, P (.keys listed) → Q (.keys listed)) {v : Json F}
    (all : ∀ part ∈ v.parts, P part) : ∀ part ∈ (mapNumbers int float v).parts, Q part := by
  induction v using nestedInduction with
  | int n => exact ints n (all _ (List.mem_singleton.mpr rfl))
  | float x => exact floats x (all _ (List.mem_singleton.mpr rfl))
  | list items ih =>
      rw [mapNumbers_list, forall_parts_list, List.forall_mem_map]
      exact fun item member => ih item member (forall_parts_list.mp all item member)
  | object fields ih =>
      obtain ⟨listed, inside⟩ := forall_parts_object.mp all
      rw [mapNumbers_object, forall_parts_object, keys_mapNumbers, List.forall_mem_map]
      exact ⟨keys _ listed, fun field member =>
        ⟨texts _ (inside field member).1, ih field member (inside field member).2⟩⟩
  | str text =>
      intro part member
      rw [List.mem_singleton.mp member]
      exact texts text (all _ (List.mem_singleton.mpr rfl))
  | nan =>
      intro part member
      rw [List.mem_singleton.mp member]
      exact constants (all _ (List.mem_singleton.mpr rfl))
  | infinity negative =>
      intro part member
      rw [List.mem_singleton.mp member]
      exact constants (all _ (List.mem_singleton.mpr rfl))
  | null => exact fun _ member => absurd member List.not_mem_nil
  | bool value => exact fun _ member => absurd member List.not_mem_nil

end Numbers

end Json

/-! ## The column -/

/-- The bytes of a text in UTF-8. -/
def byteLength (text : Text) : ℕ := (text.flatMap utf8Char).length

/-- Keys are ordered by their length, then by their bytes, which is by their code points. -/
def storedLe (first second : Text) : Prop :=
  byteLength first < byteLength second ∨ byteLength first = byteLength second ∧ first ≤ second

instance : DecidableRel storedLe := fun _ _ => inferInstanceAs (Decidable (_ ∨ _))

instance : Std.Total storedLe where
  total first second := by
    unfold storedLe
    rcases le_total first second with below | above
    · simp only [below, and_true]
      omega
    · simp only [above, and_true]
      omega

instance : IsTrans Text storedLe where
  trans first second third := by
    unfold storedLe
    rintro (shorter | ⟨same, below⟩) (next | ⟨equal, above⟩)
    · omega
    · omega
    · omega
    · exact Or.inr ⟨same.trans equal, below.trans above⟩

instance : Std.Antisymm storedLe where
  antisymm first second := by
    unfold storedLe
    rintro (shorter | ⟨same, below⟩) (next | ⟨equal, above⟩)
    · omega
    · omega
    · omega
    · exact le_antisymm below above

/-- A text that the database takes. -/
def StorableText (text : Text) : Prop := ∀ c ∈ text, IsScalar c ∧ c ≠ 0

instance (text : Text) : Decidable (StorableText text) :=
  inferInstanceAs (Decidable (∀ c ∈ text, _))

/-- A part that the database takes. -/
def JsonPart.Storable {F : Type} : JsonPart F → Prop
  | .constant => False
  | .text characters => StorableText characters
  | _ => True

instance {F : Type} : (part : JsonPart F) → Decidable part.Storable
  | .int _ => isTrue trivial
  | .float _ => isTrue trivial
  | .constant => isFalse id
  | .text characters => inferInstanceAs (Decidable (StorableText characters))
  | .keys _ => isTrue trivial

/-- A part of a stored value. -/
def JsonPart.Stored : JsonPart Numeric → Prop
  | .int _ => False
  | .float n => n.WellFormed
  | .constant => False
  | .text characters => StorableText characters
  | .keys listed => listed.Pairwise fun first second => storedLe first second ∧ first ≠ second

/-- A part of a stored value, whatever the order of the keys. -/
def JsonPart.StoredValue : JsonPart Numeric → Prop
  | .keys _ => True
  | part => part.Stored

/-- The keys of an object are in order. -/
def JsonPart.Ordered {F : Type} (le : Text → Text → Prop) : JsonPart F → Prop
  | .keys listed => listed.Pairwise le
  | _ => True

/-- A part that Python can read. -/
def JsonPart.Loadable : JsonPart Numeric → Prop
  | .float n => n.literal.isInteger = true → n.literal.whole.length ≤ maxStrDigits
  | _ => True

instance : (part : JsonPart Numeric) → Decidable part.Loadable
  | .int _ => isTrue trivial
  | .float n => inferInstanceAs (Decidable (n.literal.isInteger = true → _))
  | .constant => isTrue trivial
  | .text _ => isTrue trivial
  | .keys _ => isTrue trivial

/-- A part that storage does not change. -/
def JsonPart.Kept {F : Type} [PyFloat F] : JsonPart F → Prop
  | .float x => PyFloat.Kept x
  | _ => True

instance {F : Type} [PyFloat F] : (part : JsonPart F) → Decidable part.Kept
  | .int _ => isTrue trivial
  | .float x => inferInstanceAs (Decidable (PyFloat.Kept x))
  | .constant => isTrue trivial
  | .text _ => isTrue trivial
  | .keys _ => isTrue trivial

/-- A part that is no float and no constant. -/
def JsonPart.Whole {F : Type} : JsonPart F → Prop
  | .float _ => False
  | .constant => False
  | _ => True

instance {F : Type} : (part : JsonPart F) → Decidable part.Whole
  | .int _ => isTrue trivial
  | .float _ => isFalse id
  | .constant => isFalse id
  | .text _ => isTrue trivial
  | .keys _ => isTrue trivial

/-- A `JSONB` value. -/
@[ext] structure Jsonb where
  value : Json Numeric
  stored : ∀ part ∈ value.parts, part.Stored

namespace Json

variable {F : Type} [PyFloat F]

def Storable (v : Json F) : Prop := ∀ part ∈ v.parts, part.Storable

instance (v : Json F) : Decidable v.Storable :=
  inferInstanceAs (Decidable (∀ part ∈ v.parts, part.Storable))

/-- The numbers of a value, stored. -/
def storedNumbers : Json F → Json Numeric :=
  mapNumbers (fun n => .float (.ofDecimal (intLiteral n).decimal))
    (fun x => .float (.ofDecimal (floatLiteral (PyFloat.decimal x)).decimal))

/-- The numbers of a stored value, read. -/
def readNumbers : Json Numeric → Json F := mapNumbers .int ofNumeric

/-- Every integer is one that Python converts. -/
def Loadable (j : Json Numeric) : Prop := ∀ part ∈ j.parts, part.Loadable

instance (j : Json Numeric) : Decidable j.Loadable :=
  inferInstanceAs (Decidable (∀ part ∈ j.parts, part.Loadable))

theorem pairwise_keys_orderKeys {G : Type} {le : Text → Text → Prop} [DecidableRel le]
    [Std.Total le] [IsTrans Text le] {v : Json G} :
    ∀ part ∈ (orderKeys le v).parts, part.Ordered le := by
  have total : Std.Total fun first second : Text × Json G => le first.1 second.1 :=
    ⟨fun first second => total_of le first.1 second.1⟩
  have trans : IsTrans (Text × Json G) fun first second => le first.1 second.1 :=
    ⟨fun _ _ _ below above => trans_of le below above⟩
  induction v using nestedInduction with
  | list items ih =>
      rw [orderKeys_list, forall_parts_list, List.forall_mem_map]
      exact ih
  | object fields ih =>
      rw [orderKeys_object, forall_parts_object]
      refine ⟨List.pairwise_map.mpr (List.pairwise_insertionSort _ _), ?_⟩
      simp only [(orderFields_perm _).mem_iff, List.forall_mem_map]
      exact fun field member => ⟨trivial, ih field member⟩
  | _ => simp [orderKeys, parts, JsonPart.Ordered]

theorem unique_storedNumbers {v : Json F} (unique : v.Unique) : v.storedNumbers.Unique := by
  rw [unique_iff]
  unfold storedNumbers
  refine forall_parts_mapNumbers (P := @JsonPart.Distinct F) (Q := @JsonPart.Distinct Numeric)
    ?_ ?_ id (fun _ => id) (fun _ => id) (unique_iff.mp unique)
  · exact fun n _ part member => List.mem_singleton.mp member ▸ trivial
  · exact fun x _ part member => List.mem_singleton.mp member ▸ trivial

theorem stored_of_storable {v : Json F} (unique : v.Unique) (storable : v.Storable) :
    ∀ part ∈ (orderKeys storedLe v.storedNumbers).parts, part.Stored := by
  have distinct : (orderKeys storedLe v.storedNumbers).Unique :=
    unique_orderKeys.mpr (unique_storedNumbers unique)
  have values : ∀ part ∈ (orderKeys storedLe v.storedNumbers).parts, part.StoredValue := by
    rw [forall_parts_orderKeys fun _ => id]
    unfold storedNumbers
    refine forall_parts_mapNumbers (P := JsonPart.Storable) (Q := JsonPart.StoredValue) ?_ ?_ id
      (fun _ => id) (fun _ _ => trivial) storable
    · exact fun n _ part member => List.mem_singleton.mp member ▸ Numeric.ofDecimal_wellFormed _
    · exact fun x _ part member => List.mem_singleton.mp member ▸ Numeric.ofDecimal_wellFormed _
  intro part member
  cases part with
  | keys listed => exact (pairwise_keys_orderKeys _ member).and (distinct listed member)
  | _ => exact values _ member

/-- A value is stored. -/
def toJsonb (v : JsonValue F) : Option Jsonb :=
  if storable : v.json.Storable then
    some ⟨orderKeys storedLe v.json.storedNumbers, stored_of_storable v.unique storable⟩
  else none

/-- What a stored number is read as has no parts beyond itself. -/
theorem distinct_ofNumeric (n : Numeric) :
    ∀ part ∈ (ofNumeric (F := F) n).parts, part.Distinct := by
  unfold ofNumeric ofLiteral
  split_ifs
  · exact fun part member => List.mem_singleton.mp member ▸ trivial
  · exact fun part member => List.mem_singleton.mp member ▸ trivial
  · exact fun part member => absurd member List.not_mem_nil
  · cases PyFloat.nearest (F := F) n.literal.decimal with
    | none => exact fun part member => List.mem_singleton.mp member ▸ trivial
    | some x => exact fun part member => List.mem_singleton.mp member ▸ trivial

theorem unique_readNumbers (j : Jsonb) : (readNumbers (F := F) j.value).Unique := by
  rw [unique_iff]
  unfold readNumbers
  refine forall_parts_mapNumbers (P := JsonPart.Stored) (Q := @JsonPart.Distinct F)
    (fun n no => no.elim) (fun n _ => distinct_ofNumeric n) False.elim (fun _ _ => trivial)
    (fun listed ordered => ordered.imp fun both => both.2) j.stored

/-- A stored value is read. -/
def fromJsonb (j : Jsonb) : Except JsonError (JsonValue F) :=
  if j.value.Loadable then .ok ⟨readNumbers j.value, unique_readNumbers j⟩
  else .error .tooManyDigits

/-! ## What storage changes -/

/-- The numbers of a value, stored and read. -/
def throughStorage : Json F → Json F :=
  mapNumbers .int fun x => ofNumeric (.ofDecimal (floatLiteral (PyFloat.decimal x)).decimal)

theorem orderKeys_ofNumeric {le : Text → Text → Prop} [DecidableRel le] (n : Numeric) :
    orderKeys le (ofNumeric (F := F) n) = ofNumeric n := by
  unfold ofNumeric ofLiteral
  split_ifs
  · rfl
  · rfl
  · rfl
  · cases PyFloat.nearest (F := F) n.literal.decimal with
    | none => rfl
    | some x => rfl

theorem readNumbers_storedNumbers {v : Json F} (dumpable : v.Dumpable) :
    readNumbers v.storedNumbers = v.throughStorage := by
  unfold readNumbers storedNumbers throughStorage
  rw [mapNumbers_mapNumbers, mapNumbers_eq_iff]
  intro part member
  cases part with
  | int n =>
      have short : (natText n.natAbs).length ≤ maxStrDigits := dumpable (.int n) member
      unfold JsonPart.Agree
      simp only
      rw [Function.comp_apply, mapNumbers, ofNumeric_int short]
  | float x => rfl
  | _ => trivial

/-- Every float is one that storage keeps. -/
def Kept (v : Json F) : Prop := ∀ part ∈ v.parts, part.Kept

instance (v : Json F) : Decidable v.Kept := inferInstanceAs (Decidable (∀ part ∈ v.parts, _))

theorem kept_sortKeys {v : Json F} : (sortKeys v).Kept ↔ v.Kept :=
  forall_parts_orderKeys fun _ => id

/-- **Only floats that are not kept** are changed. -/
theorem throughStorage_eq_iff {v : Json F} : v.throughStorage = v ↔ v.Kept := by
  have same : v.throughStorage = v ↔ v.throughStorage = mapNumbers .int .float v := by
    rw [mapNumbers_self]
  rw [same]
  unfold throughStorage
  rw [mapNumbers_eq_iff]
  refine forall₂_congr fun part _ => ?_
  cases part with
  | int n => exact iff_of_true rfl trivial
  | float x => exact ofNumeric_float x
  | _ => exact Iff.rfl

theorem unique_throughStorage {v : Json F} (unique : v.Unique) : v.throughStorage.Unique := by
  rw [unique_iff] at unique ⊢
  unfold throughStorage
  refine forall_parts_mapNumbers (P := @JsonPart.Distinct F) (Q := @JsonPart.Distinct F)
    ?_ (fun _ _ => distinct_ofNumeric _) id (fun _ => id) (fun _ => id) unique
  exact fun n _ part member => List.mem_singleton.mp member ▸ trivial

theorem throughStorage_sortKeys (v : Json F) :
    (sortKeys v).throughStorage = sortKeys v.throughStorage :=
  mapNumbers_orderKeys (fun _ => rfl) (fun _ => orderKeys_ofNumeric _) v

theorem fromJsonb_eq {j : Jsonb} {w : JsonValue F} (loaded : fromJsonb j = .ok w) :
    j.value.Loadable ∧ w.json = readNumbers j.value := by
  unfold fromJsonb at loaded
  split_ifs at loaded with loadable
  exact ⟨loadable, congrArg JsonValue.json (Except.ok.inj loaded).symm⟩

theorem toJsonb_eq {v : JsonValue F} {j : Jsonb} (stored : toJsonb v = some j) :
    v.json.Storable ∧ j.value = orderKeys storedLe v.json.storedNumbers := by
  unfold toJsonb at stored
  split_ifs at stored with storable
  exact ⟨storable, congrArg Jsonb.value (Option.some.inj stored).symm⟩

/-- What was stored comes back with its numbers changed and its keys in any order. -/
theorem sortKeys_fromJsonb {v w : JsonValue F} {j : Jsonb} (dumpable : v.json.Dumpable)
    (stored : toJsonb v = some j) (loaded : fromJsonb j = .ok w) :
    sortKeys w.json = (sortKeys v.json).throughStorage := by
  have through := readNumbers_storedNumbers dumpable
  rw [(fromJsonb_eq loaded).2, (toJsonb_eq stored).2]
  unfold readNumbers at through ⊢
  rw [mapNumbers_orderKeys (fun _ => rfl) (fun _ => orderKeys_ofNumeric _), through,
    sortKeys_orderKeys (unique_throughStorage v.unique), throughStorage_sortKeys]

/-- **Storage keeps a value** exactly when it keeps all of its floats. -/
theorem sortKeys_fromJsonb_iff {v w : JsonValue F} {j : Jsonb} (dumpable : v.json.Dumpable)
    (stored : toJsonb v = some j) (loaded : fromJsonb j = .ok w) :
    sortKeys w.json = sortKeys v.json ↔ v.json.Kept := by
  rw [sortKeys_fromJsonb dumpable stored loaded, throughStorage_eq_iff, kept_sortKeys]

/-- A stored value with nothing but kept floats can be read. -/
theorem fromJsonb_isOk {v : JsonValue F} {j : Jsonb} (dumpable : v.json.Dumpable)
    (kept : v.json.Kept) (stored : toJsonb v = some j) : ∃ w, fromJsonb (F := F) j = .ok w := by
  have loadable : j.value.Loadable := by
    have both : ∀ part ∈ v.json.parts, part.Dumpable ∧ part.Kept :=
      fun part member => ⟨dumpable part member, kept part member⟩
    unfold Loadable
    rw [(toJsonb_eq stored).2, forall_parts_orderKeys fun _ => id]
    unfold storedNumbers
    refine forall_parts_mapNumbers (P := fun part => part.Dumpable ∧ part.Kept)
      (Q := JsonPart.Loadable) ?_ ?_ (fun _ => trivial) (fun _ _ => trivial)
      (fun _ _ => trivial) both
    · rintro n ⟨short, -⟩ part member
      rw [List.mem_singleton.mp member]
      intro _
      rw [Numeric.literal_ofDecimal_int]
      exact short
    · rintro x ⟨-, kept⟩ part member
      rw [List.mem_singleton.mp member]
      intro integer
      -- a kept float has digits behind the point
      have negative := (floatLiteral_exponent_neg (PyFloat.short x)).mpr kept.2
      rw [Numeric.literal_isInteger, decide_eq_true_eq] at integer
      unfold Numeric.ofDecimal at integer
      simp only at integer
      omega
  unfold fromJsonb
  rw [if_pos loadable]
  exact ⟨_, rfl⟩

/-! ## Values without floats -/

/-- Nothing but strings, integers, booleans, nulls, lists and objects. -/
def Whole (v : Json F) : Prop := ∀ part ∈ v.parts, part.Whole

instance (v : Json F) : Decidable v.Whole := inferInstanceAs (Decidable (∀ part ∈ v.parts, _))

omit [PyFloat F] in
theorem whole_sortKeys {v : Json F} : (sortKeys v).Whole ↔ v.Whole :=
  forall_parts_orderKeys fun _ => id

theorem Whole.kept {v : Json F} (whole : v.Whole) : v.Kept := by
  intro part member
  have plain := whole part member
  cases part with
  | float x => exact plain.elim
  | _ => trivial

/-- An integer is stored in one way only. -/
theorem storedNumbers_ofNumeric {n : Numeric} (formed : n.WellFormed)
    (loadable : JsonPart.Loadable (.float n)) (whole : (ofNumeric (F := F) n).Whole) :
    storedNumbers (ofNumeric (F := F) n) = .float n := by
  by_cases fraction : n.scale = 0
  · have row : n.literal.whole = n.row := by
      unfold Numeric.literal
      rw [fraction, Nat.sub_zero, List.take_length]
    have short := loadable (by rw [n.literal_isInteger, decide_eq_true fraction])
    have integer : ofNumeric (F := F) n = .int (if n.negative then -(n.digits : ℤ) else n.digits) := by
      unfold ofNumeric ofLiteral
      rw [n.literal_isInteger, decide_eq_true fraction, if_pos rfl, if_pos short, row,
        n.digitsValue_row]
      rfl
    rw [integer]
    exact congrArg Json.float (Numeric.ofDecimal_whole formed fraction)
  · rw [ofNumeric_fraction fraction] at whole
    cases read : PyFloat.nearest (F := F) ⟨n.negative, n.digits, -n.scale⟩ with
    | none =>
        rw [read] at whole
        exact (whole .constant (List.mem_singleton.mpr rfl)).elim
    | some x =>
        rw [read] at whole
        exact (whole (.float x) (List.mem_singleton.mpr rfl)).elim

theorem storedNumbers_readNumbers {s : Json Numeric}
    (stored : ∀ part ∈ s.parts, part.StoredValue ∧ part.Loadable)
    (whole : (readNumbers (F := F) s).Whole) : storedNumbers (readNumbers (F := F) s) = s := by
  unfold readNumbers storedNumbers at *
  induction s using nestedInduction with
  | int n => exact (stored _ (List.mem_singleton.mpr rfl)).1.elim
  | float n =>
      obtain ⟨formed, loadable⟩ := stored _ (List.mem_singleton.mpr rfl)
      exact storedNumbers_ofNumeric formed loadable whole
  | list items ih =>
      rw [forall_parts_list] at stored
      unfold Whole at whole
      rw [mapNumbers_list, forall_parts_list, List.forall_mem_map] at whole
      rw [mapNumbers_list, mapNumbers_list, List.map_map]
      exact congrArg list (map_eq_self fun item member =>
        ih item member (stored item member) (whole item member))
  | object fields ih =>
      obtain ⟨-, inside⟩ := forall_parts_object.mp stored
      unfold Whole at whole
      rw [mapNumbers_object, forall_parts_object, List.forall_mem_map] at whole
      rw [mapNumbers_object, mapNumbers_object, List.map_map]
      exact congrArg object (map_eq_self fun field member => congrArg (Prod.mk field.1)
        (ih field member (inside field member).2 (whole.2 field member).2))
  | _ => rfl

/-- Keys that are in order stay where they are. -/
theorem orderKeys_eq_self {G : Type} {le : Text → Text → Prop} [DecidableRel le] {v : Json G}
    (ordered : ∀ part ∈ v.parts, part.Ordered le) : orderKeys le v = v := by
  induction v using nestedInduction with
  | list items ih =>
      rw [forall_parts_list] at ordered
      rw [orderKeys_list, map_eq_self fun item member => ih item member (ordered item member)]
  | object fields ih =>
      obtain ⟨keys, inside⟩ := forall_parts_object.mp ordered
      rw [orderKeys_object,
        map_values_eq_self fun field member => ih field member (inside field member).2]
      exact congrArg object (List.Pairwise.insertionSort_eq (List.pairwise_map.mp keys))
  | _ => rfl

theorem unique_jsonb (j : Jsonb) : j.value.Unique := by
  intro keys member
  exact (j.stored _ member).imp fun both => both.2

/-- **A stored value without floats** is the only one that is read as it. -/
theorem eq_of_sortKeys_fromJsonb {v w : JsonValue F} {j stored : Jsonb} (whole : v.json.Whole)
    (first : toJsonb v = some stored) (loaded : fromJsonb j = .ok w)
    (same : sortKeys w.json = sortKeys v.json) : j = stored := by
  obtain ⟨loadable, read⟩ := fromJsonb_eq loaded
  have sorted : readNumbers (sortKeys j.value) = sortKeys v.json := by
    rw [← same, read]
    exact mapNumbers_orderKeys (fun _ => rfl) (fun _ => orderKeys_ofNumeric _) j.value
  have parts : ∀ part ∈ (sortKeys j.value).parts, part.StoredValue ∧ part.Loadable := by
    refine (forall_parts_orderKeys fun _ => id).mpr fun part member => ⟨?_, loadable part member⟩
    cases part with
    | keys listed => trivial
    | _ => exact j.stored _ member
  have back : storedNumbers (sortKeys v.json) = sortKeys j.value := by
    rw [← sorted]
    refine storedNumbers_readNumbers parts ?_
    rw [sorted]
    exact whole_sortKeys.mpr whole
  have ordered : ∀ part ∈ j.value.parts, part.Ordered storedLe := by
    intro part member
    cases part with
    | keys listed => exact (j.stored _ member).imp fun both => both.1
    | _ => trivial
  have commute : storedNumbers (sortKeys v.json) = sortKeys v.json.storedNumbers :=
    mapNumbers_orderKeys (fun _ => rfl) (fun _ => rfl) v.json
  refine Jsonb.ext ?_
  calc j.value = orderKeys storedLe j.value := (orderKeys_eq_self ordered).symm
    _ = orderKeys storedLe (sortKeys j.value) := (orderKeys_orderKeys (unique_jsonb j)).symm
    _ = orderKeys storedLe (sortKeys v.json.storedNumbers) := by rw [← back, commute]
    _ = orderKeys storedLe v.json.storedNumbers := orderKeys_orderKeys (unique_storedNumbers v.unique)
    _ = stored.value := (toJsonb_eq first).2.symm

end Json

end ImposbroSearch.Foundation
