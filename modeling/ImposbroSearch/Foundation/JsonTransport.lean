import ImposbroSearch.Foundation.JsonCharacters

/-!
# JSON in transport

A value is printed with escapes, sent as bytes in ASCII, and read at the other end. What was
read of a text before arrives as it was: the reader has already joined the surrogates that
make a pair. A reader that refuses the constants takes no value that has one.
-/

namespace ImposbroSearch.Foundation

/-! ## Surrogates -/

def IsHighSurrogate (c : ℕ) : Prop := 0xd800 ≤ c ∧ c ≤ 0xdbff

def IsLowSurrogate (c : ℕ) : Prop := 0xdc00 ≤ c ∧ c ≤ 0xdfff

/-- A text of code points where no two surrogates make a pair. -/
structure Settled (text : Text) : Prop where
  points : ∀ c ∈ text, c < 0x110000
  unpaired : text.IsChain fun c d => ¬(IsHighSurrogate c ∧ IsLowSurrogate d)

theorem settled_nil : Settled [] := ⟨fun _ member => absurd member List.not_mem_nil, .nil⟩

theorem settled_cons {c : ℕ} {text : Text} : Settled (c :: text) ↔
    c < 0x110000 ∧ (∀ d ∈ text.head?, ¬(IsHighSurrogate c ∧ IsLowSurrogate d)) ∧
      Settled text := by
  constructor
  · rintro ⟨points, unpaired⟩
    obtain ⟨point, others⟩ := List.forall_mem_cons.mp points
    obtain ⟨apart, behind⟩ := List.isChain_cons.mp unpaired
    exact ⟨point, apart, others, behind⟩
  · rintro ⟨point, apart, others, behind⟩
    exact ⟨List.forall_mem_cons.mpr ⟨point, others⟩, List.isChain_cons.mpr ⟨apart, behind⟩⟩

theorem settled_of_scalar {text : Text} (scalars : ∀ c ∈ text, IsScalar c) : Settled text := by
  induction text with
  | nil => exact settled_nil
  | cons c text ih =>
      obtain ⟨scalar, others⟩ := List.forall_mem_cons.mp scalars
      refine settled_cons.mpr ⟨?_, fun d _ pair => ?_, ih others⟩
      · unfold IsScalar at scalar
        omega
      · have high := pair.1
        unfold IsScalar at scalar
        unfold IsHighSurrogate at high
        omega

/-- A unit that makes no pair with the next one stands for itself. -/
theorem joinPairs_apart {unit : Bool × ℕ} {units : List (Bool × ℕ)}
    (apart : ∀ low rest, units = (true, low) :: rest →
      ¬(IsHighSurrogate unit.2 ∧ IsLowSurrogate low)) :
    joinPairs (unit :: units) = unit.2 :: joinPairs units := by
  obtain ⟨escaped, c⟩ := unit
  cases escaped with
  | false => rfl
  | true =>
      cases units with
      | nil => rfl
      | cons other rest =>
          obtain ⟨also, low⟩ := other
          cases also with
          | false => rfl
          | true => exact if_neg (apart low rest rfl)

/-- A character is printed as itself, or beyond the basic plane as a pair. -/
theorem charUnits_cases (ensureAscii : Bool) (c : ℕ) :
    (∃ escaped, charUnits ensureAscii c = [(escaped, c)]) ∨ 0x10000 ≤ c ∧
      charUnits ensureAscii c =
        [(true, 0xd800 + (c - 0x10000) / 1024), (true, 0xdc00 + (c - 0x10000) % 1024)] := by
  unfold charUnits
  cases escapeLetter c with
  | some letter => exact Or.inl ⟨false, rfl⟩
  | none =>
      simp only
      split_ifs with control plain basic
      · exact Or.inl ⟨true, rfl⟩
      · exact Or.inl ⟨false, rfl⟩
      · exact Or.inl ⟨true, rfl⟩
      · exact Or.inr ⟨not_lt.mp basic, rfl⟩

/-- A printed character that begins with the escape of a low surrogate is that one. -/
theorem charUnits_low {ensureAscii : Bool} {c low : ℕ} {units rest : List (Bool × ℕ)}
    (point : c < 0x110000) (begins : charUnits ensureAscii c ++ units = (true, low) :: rest)
    (surrogate : IsLowSurrogate low) : c = low := by
  unfold IsLowSurrogate at surrogate
  rcases charUnits_cases ensureAscii c with ⟨escaped, single⟩ | ⟨beyond, pair⟩
  · rw [single] at begins
    exact congrArg Prod.snd (List.cons.inj begins).1
  · rw [pair] at begins
    have high := congrArg Prod.snd (List.cons.inj begins).1
    simp only at high
    omega

/-- **A settled text survives its escapes.** -/
theorem rejoin_settled {ensureAscii : Bool} {text : Text} (settled : Settled text) :
    rejoin ensureAscii text = text := by
  unfold rejoin
  induction text with
  | nil => rfl
  | cons c text ih =>
      obtain ⟨point, apart, others⟩ := settled_cons.mp settled
      rw [List.flatMap_cons]
      rcases charUnits_cases ensureAscii c with ⟨escaped, single⟩ | ⟨beyond, pair⟩
      · rw [single, List.singleton_append, joinPairs_apart, ih others]
        -- what comes next is no low surrogate behind a high one
        rintro low rest begins ⟨high, surrogate⟩
        cases text with
        | nil => cases begins
        | cons d text =>
            rw [List.flatMap_cons] at begins
            obtain rfl := charUnits_low (settled_cons.mp others).1 begins surrogate
            exact apart d rfl ⟨high, surrogate⟩
      · rw [pair]
        refine (joinPairs_pair (by omega)).trans ?_
        show _ :: joinPairs (text.flatMap (charUnits ensureAscii)) = _
        rw [ih others]
        refine congrArg (· :: text) ?_
        omega

/-- **What is joined is settled.** -/
theorem settled_joinPairs {units : List (Bool × ℕ)} (fits : ∀ unit ∈ units, UnitFits IsScalar unit) :
    Settled (joinPairs units) ∧ ∀ c ∈ (joinPairs units).head?, IsLowSurrogate c →
      ∃ rest, units = (true, c) :: rest := by
  induction units using joinPairs.induct with
  | case1 => exact ⟨settled_nil, fun c member => by cases member⟩
  | case2 high low units pair ih =>
      obtain ⟨settled, -⟩ := ih fun unit member => fits unit
        (List.mem_cons_of_mem _ (List.mem_cons_of_mem _ member))
      rw [joinPairs_pair pair]
      constructor
      · refine settled_cons.mpr ⟨by omega, fun d _ surrogates => ?_, settled⟩
        have first := surrogates.1
        unfold IsHighSurrogate at first
        omega
      · intro c member surrogate
        obtain rfl := Option.some.inj member
        unfold IsLowSurrogate at surrogate
        omega
  | case3 high low units apart ih =>
      obtain ⟨settled, begins⟩ := ih fun unit member => fits unit (List.mem_cons_of_mem _ member)
      have unit : high < 0x10000 := fits (true, high) List.mem_cons_self
      rw [joinPairs, if_neg apart]
      constructor
      · refine settled_cons.mpr ⟨by omega, fun d member pair => ?_, settled⟩
        obtain ⟨rest, same⟩ := begins d member pair.2
        obtain rfl : low = d := congrArg Prod.snd (List.cons.inj same).1
        exact apart pair
      · intro c member _
        obtain rfl := Option.some.inj member
        exact ⟨_, rfl⟩
  | case4 escaped c units single ih =>
      obtain ⟨settled, begins⟩ := ih fun unit member => fits unit (List.mem_cons_of_mem _ member)
      have own := fits (escaped, c) List.mem_cons_self
      rw [joinPairs.eq_3 _ _ _ single]
      cases escaped with
      | true =>
          have unit : c < 0x10000 := own
          constructor
          · refine settled_cons.mpr ⟨by omega, fun d member pair => ?_, settled⟩
            obtain ⟨rest, same⟩ := begins d member pair.2
            exact single d rest same rfl
          · intro d member _
            obtain rfl := Option.some.inj member
            exact ⟨units, rfl⟩
      | false =>
          -- a character that was no escape is no surrogate
          have scalar : IsScalar c := own.elim (fun ascii => Or.inl (ascii.trans (by norm_num))) id
          unfold IsScalar at scalar
          constructor
          · refine settled_cons.mpr ⟨by omega, fun d _ pair => ?_, settled⟩
            have high := pair.1
            unfold IsHighSurrogate at high
            omega
          · intro d member low
            obtain rfl := Option.some.inj member
            unfold IsLowSurrogate at low
            omega

/-- A string that is read of a text in Unicode. -/
theorem settled_scanString {text left : Text} {units : List (Bool × ℕ)}
    (scalars : ∀ c ∈ text, IsScalar c) (scanned : scanString text = some (units, left)) :
    Settled (joinPairs units) := by
  refine (settled_joinPairs fun unit member => ?_).1
  have fits := (scanString_some scanned).1 unit member
  unfold UnitFits at fits ⊢
  split_ifs at fits ⊢
  · exact fits
  · exact fits.imp_right (scalars unit.2)

namespace Json

variable {F : Type}

/-! ## Values -/

/-- Its strings are settled. -/
def IsSettled (v : Json F) : Prop := ∀ text, .text text ∈ v.parts → Settled text

theorem isSettled_iff {v : Json F} :
    v.IsSettled ↔ ∀ part ∈ v.parts, ∀ text, part = .text text → Settled text := by
  constructor
  · rintro settled part member text rfl
    exact settled text member
  · intro settled text member
    exact settled _ member text rfl

theorem rereadItems_map (style : JsonStyle) (items : List (Json F)) :
    rereadItems style items = items.map (reread style) := by
  induction items with
  | nil => rfl
  | cons item items ih => rw [rereadItems, ih, List.map_cons]

theorem rereadFields_map (style : JsonStyle) (fields : List (Text × Json F)) :
    rereadFields style fields =
      fields.map fun field => (rejoin style.ensureAscii field.1, reread style field.2) := by
  induction fields with
  | nil => rfl
  | cons field fields ih =>
      obtain ⟨key, value⟩ := field
      rw [rereadFields, ih, List.map_cons]

/-- **A settled value survives the transport.** -/
theorem reread_of_settled {style : JsonStyle} {v : Json F} (settled : v.IsSettled) :
    reread style v = v := by
  rw [isSettled_iff] at settled
  induction v using nestedInduction with
  | str text =>
      rw [reread, rejoin_settled (settled _ (List.mem_singleton_self _) text rfl)]
  | list items ih =>
      rw [forall_parts_list] at settled
      rw [reread, rereadItems_map, map_eq_self fun item member =>
        ih item member (settled item member)]
  | object fields ih =>
      rw [forall_parts_object] at settled
      rw [reread, rereadFields_map, map_eq_self]
      intro field member
      obtain ⟨key, value⟩ := settled.2 field member
      exact Prod.ext (rejoin_settled (key field.1 rfl)) (ih field member value)
  | _ => rfl

/-- A value in memory that was loaded is settled. -/
theorem isSettled_dicts {v : Json F} (settled : v.IsSettled) : v.dicts.IsSettled := by
  rw [isSettled_iff] at settled ⊢
  exact forall_parts_dicts (fun _ _ same => by cases same) settled

variable [PyFloat F]

/-- **What is read is settled**, of a text in Unicode. -/
theorem isSettled_read {constants : Bool} {text : Text} {v : Json F}
    (scalars : ∀ c ∈ text, IsScalar c) (result : read constants text = .ok v) : v.IsSettled := by
  have rule : ReadRule (F := F) (fun text => ∀ c ∈ text, IsScalar c)
      fun part => ∀ text, part = .text text → Settled text := by
    constructor
    case suffix => exact fun left scalars c member => scalars c (left.subset member)
    case string =>
      rintro text left units scalars scanned other same
      obtain rfl := JsonPart.text.inj same
      exact settled_scanString scalars scanned
    all_goals simp
  exact isSettled_iff.mpr (rule.read scalars result)

/-! ## Bytes in ASCII -/

omit [PyFloat F] in
theorem escapeChar_ascii {c d : ℕ} (member : c ∈ escapeChar true d) : c < 127 := by
  unfold escapeChar at member
  cases escaped : escapeLetter d with
  | some letter =>
      rw [escaped] at member
      have bounds := (escapeLetter_ascii escaped).2
      simp only [List.mem_cons, List.not_mem_nil, or_false] at member
      rcases member with rfl | rfl
      · norm_num
      · exact bounds.2
  | none =>
      rw [escaped] at member
      simp only [Bool.true_eq_false, or_false] at member
      split_ifs at member with control plain basic
      · exact (mem_unicodeEscape member).2
      · obtain rfl := List.mem_singleton.mp member
        exact plain
      · exact (mem_unicodeEscape member).2
      · rcases List.mem_append.mp member with high | low
        · exact (mem_unicodeEscape high).2
        · exact (mem_unicodeEscape low).2

omit [PyFloat F] in
theorem stringText_ascii {text : Text} {c : ℕ} (member : c ∈ stringText true text) : c < 127 := by
  unfold stringText at member
  rcases List.mem_cons.mp member with rfl | inside
  · norm_num
  rcases List.mem_append.mp inside with inside | quote
  · obtain ⟨d, -, printed⟩ := List.mem_flatMap.mp inside
    exact escapeChar_ascii printed
  · obtain rfl := List.mem_singleton.mp quote
    norm_num

/-- **A text with escapes is in ASCII.** -/
theorem print_ascii {style : JsonStyle} (escapes : style.ensureAscii = true) {v : Json F} :
    ∀ c ∈ print style v, c < 127 := by
  have words : ∀ word ∈ [chars "null", chars "true", chars "false", chars "NaN",
      chars "Infinity", chars "-Infinity", [91, 93], [123, 125]], ∀ c ∈ word, c < 127 := by decide
  have item : ∀ c ∈ style.itemSeparator, c < 127 := fun c member => (mem_itemSeparator style member).2
  have colon : ∀ c ∈ style.keySeparator, c < 127 := fun c member => (mem_keySeparator style member).2
  have quoted : ∀ text, ∀ c ∈ stringText style.ensureAscii text, c < 127 := by
    rw [escapes]
    exact fun text c => stringText_ascii
  induction v using nestedInduction with
  | null => exact words _ (by simp [print])
  | bool value =>
      cases value with
      | true => exact words _ (by simp [print])
      | false => exact words _ (by simp [print])
  | int n =>
      rw [print]
      exact fun c member => (NumberLiteral.mem_text (intLiteral_wellFormed n) member).2
  | float x =>
      rw [print]
      exact fun c member =>
        (NumberLiteral.mem_text (floatLiteral_wellFormed (PyFloat.canonical x)) member).2
  | nan => exact words _ (by simp [print])
  | infinity negative =>
      cases negative with
      | true => exact words _ (by simp [print])
      | false => exact words _ (by simp [print])
  | str text =>
      rw [print]
      exact quoted text
  | list items ih =>
      cases items with
      | nil => exact words _ (by simp [print])
      | cons first items =>
          obtain ⟨own, others⟩ := List.forall_mem_cons.mp ih
          have behind : ∀ c ∈ printItems style items, c < 127 := by
            clear own ih
            induction items with
            | nil => simp [printItems]
            | cons next items deeper =>
                obtain ⟨value, later⟩ := List.forall_mem_cons.mp others
                rw [printItems]
                simp only [List.forall_mem_append]
                exact ⟨item, value, deeper later⟩
          rw [print]
          exact List.forall_mem_cons.mpr
            ⟨by norm_num, List.forall_mem_append.mpr ⟨own, behind⟩⟩
  | object fields ih =>
      cases fields with
      | nil => exact words _ (by simp [print])
      | cons first fields =>
          obtain ⟨key, value⟩ := first
          obtain ⟨own, others⟩ := List.forall_mem_cons.mp ih
          have behind : ∀ c ∈ printFields style fields, c < 127 := by
            clear own ih
            induction fields with
            | nil => simp [printFields]
            | cons next fields deeper =>
                obtain ⟨key, value⟩ := next
                obtain ⟨value, later⟩ := List.forall_mem_cons.mp others
                rw [printFields]
                simp only [List.forall_mem_append]
                exact ⟨item, quoted key, colon, value, deeper later⟩
          rw [print]
          refine List.forall_mem_cons.mpr ⟨by norm_num, ?_⟩
          simp only [List.forall_mem_append]
          exact ⟨quoted key, colon, own, behind⟩

/-! ## Constants -/

omit [PyFloat F] in
theorem Finite.scannable {style : JsonStyle} {v : Json F} (finite : v.Finite)
    (scannable : v.Scannable style true) : v.Scannable style false := by
  intro part member
  cases part with
  | constant => exact absurd member finite
  | _ => exact scannable _ member

omit [PyFloat F] in
theorem finite_iff {v : Json F} : v.Finite ↔ ∀ part ∈ v.parts, part ≠ .constant := by
  constructor
  · rintro finite part member rfl
    exact finite member
  · exact fun all member => all _ member rfl

/-- A reader that refuses the constants takes the value only if it has none. -/
def OnlyFinite (style : JsonStyle) (v : Json F) : Prop :=
  ∀ {fuel : ℕ} {rest left : Text} {w : Json F}, weight v ≤ fuel →
    scanValue false fuel (print style v ++ rest) = .ok (w, left) → v.Finite

variable {style : JsonStyle}

/-- The items from one on. -/
theorem finite_of_scanItems {items : List (Json F)} (only : ∀ item ∈ items, OnlyFinite style item)
    (scannable : ∀ item ∈ items, item.Scannable style true) {item : Json F}
    (own : OnlyFinite style item) (scans : item.Scannable style true) {fuel : ℕ} {rest left : Text}
    {read : List (Json F)} (enough : weight item + weightOfItems items ≤ fuel)
    (scanned : scanItems false (fuel + 1) (print style item ++ (printItems style items ++ rest)) =
      .ok (read, left)) : item.Finite ∧ ∀ item ∈ items, item.Finite := by
  induction items generalizing item fuel left read with
  | nil =>
      rw [scanItems] at scanned
      split at scanned
      next => cases scanned
      next first =>
        exact ⟨own (by omega) first, fun _ member => absurd member List.not_mem_nil⟩
  | cons next items ih =>
      obtain ⟨onlyNext, onlyOthers⟩ := List.forall_mem_cons.mp only
      obtain ⟨scansNext, scansOthers⟩ := List.forall_mem_cons.mp scannable
      simp only [weightOfItems] at enough
      obtain ⟨fuel, rfl⟩ : ∃ less, fuel = less + 1 := ⟨fuel - 1, by omega⟩
      have finite : item.Finite := by
        rw [scanItems] at scanned
        split at scanned
        next => cases scanned
        next first => exact own (by omega) first
      have first := scanValue_print style false item (finite.scannable scans) (fuel + 1)
        (printItems style (next :: items) ++ rest) (by omega) (stops_printItems style _ rest)
      rw [scanItems, first, printItems, style.itemSeparator_eq] at scanned
      simp only [List.cons_append, List.append_assoc] at scanned
      rw [skipSpace_cons (by decide)] at scanned
      simp only at scanned
      rw [skipSpace_blank_print] at scanned
      split at scanned
      next => cases scanned
      next others behind more =>
        exact ⟨finite, List.forall_mem_cons.mpr
          (ih onlyOthers scansOthers onlyNext scansNext
            (by omega : weight next + weightOfItems items ≤ fuel) more)⟩

/-- The value of a field that is scanned. -/
theorem scanFields_value {fuel : ℕ} {key rest left : Text} {value : Json F}
    {read : List (Text × Json F)}
    (encodable : style.ensureAscii = true → ∀ c ∈ key, c < 0x110000)
    (scanned : scanFields false (fuel + 1) (fieldText style key value rest) = .ok (read, left)) :
    ∃ (own : Json F) (behind : Text),
      scanValue false fuel (print style value ++ rest) = .ok (own, behind) := by
  have string := scanString_text encodable (style.keySeparator ++ (print style value ++ rest))
  unfold fieldText stringText at scanned
  rw [List.cons_append, List.append_assoc, List.singleton_append, scanFields, string,
    style.keySeparator_eq] at scanned
  simp only at scanned
  rw [List.cons_append, skipSpace_cons (by decide)] at scanned
  simp only at scanned
  rw [skipSpace_blank_print] at scanned
  split at scanned
  next => cases scanned
  next own behind first => exact ⟨own, behind, first⟩

/-- The fields from one on. -/
theorem finite_of_scanFields {fields : List (Text × Json F)}
    (only : ∀ field ∈ fields, OnlyFinite style field.2)
    (scannable : ∀ part ∈ partsOfFields fields, part.Scannable style true) {key : Text}
    {value : Json F} (encodable : style.ensureAscii = true → ∀ c ∈ key, c < 0x110000)
    (own : OnlyFinite style value) (scans : value.Scannable style true) {fuel : ℕ}
    {rest left : Text} {read : List (Text × Json F)}
    (enough : weight value + weightOfFields fields ≤ fuel)
    (scanned : scanFields false (fuel + 1)
      (fieldText style key value (printFields style fields ++ rest)) = .ok (read, left)) :
    value.Finite ∧ ∀ field ∈ fields, field.2.Finite := by
  induction fields generalizing key value fuel left read with
  | nil =>
      obtain ⟨result, behind, first⟩ := scanFields_value encodable scanned
      exact ⟨own (by omega) first, fun _ member => absurd member List.not_mem_nil⟩
  | cons field fields ih =>
      obtain ⟨next, inner⟩ := field
      obtain ⟨onlyNext, onlyOthers⟩ := List.forall_mem_cons.mp only
      simp only [partsOfFields, List.forall_mem_cons, List.forall_mem_append] at scannable
      obtain ⟨named, scansNext, scansOthers⟩ := scannable
      simp only [weightOfFields] at enough
      obtain ⟨fuel, rfl⟩ : ∃ less, fuel = less + 1 := ⟨fuel - 1, by omega⟩
      obtain ⟨result, behind, found⟩ := scanFields_value encodable scanned
      have finite : value.Finite := own (by omega) found
      have first := scanValue_print style false value (finite.scannable scans) (fuel + 1)
        (printFields style ((next, inner) :: fields) ++ rest) (by omega)
        (stops_printFields style _ rest)
      have text : printFields style ((next, inner) :: fields) ++ rest =
          44 :: (style.blank ++ fieldText style next inner (printFields style fields ++ rest)) := by
        rw [printFields, fieldText, style.itemSeparator_eq]
        simp only [List.cons_append, List.append_assoc]
      have quoted : skipSpace (style.blank ++
          fieldText style next inner (printFields style fields ++ rest)) =
            fieldText style next inner (printFields style fields ++ rest) := by
        refine skipSpace_blank style fun c here => ?_
        obtain rfl : 34 = c := Option.some.inj here
        decide
      rw [scanFields_field style encodable first, text, skipSpace_cons (by decide)] at scanned
      simp only at scanned
      rw [quoted] at scanned
      split at scanned
      next => cases scanned
      next others behind more =>
        exact ⟨finite, List.forall_mem_cons.mpr
          (ih onlyOthers scansOthers named onlyNext scansNext
            (by omega : weight inner + weightOfFields fields ≤ fuel) more)⟩

theorem onlyFinite {v : Json F} (scannable : v.Scannable style true) : OnlyFinite style v := by
  induction v using nestedInduction with
  | nan =>
      intro fuel rest left w enough scanned
      simp only [weight] at enough
      obtain ⟨fuel, rfl⟩ : ∃ less, fuel = less + 1 := ⟨fuel - 1, by omega⟩
      cases scanned
  | infinity negative =>
      intro fuel rest left w enough scanned
      simp only [weight] at enough
      obtain ⟨fuel, rfl⟩ : ∃ less, fuel = less + 1 := ⟨fuel - 1, by omega⟩
      cases negative with
      | true => cases scanned
      | false => cases scanned
  | list items ih =>
      intro fuel rest left w enough scanned
      rw [finite_iff, forall_parts_list]
      cases items with
      | nil => exact fun _ member => absurd member List.not_mem_nil
      | cons item items =>
          simp only [weight, weightOfItems] at enough
          obtain ⟨fuel, rfl⟩ : ∃ less, fuel = less + 2 := ⟨fuel - 2, by omega⟩
          have all : ∀ other ∈ item :: items, other.Scannable style true :=
            fun other member => forall_parts_list.mp scannable other member
          obtain ⟨scans, others⟩ := List.forall_mem_cons.mp all
          obtain ⟨own, only⟩ := List.forall_mem_cons.mp ih
          obtain ⟨c, tail, text, visible, open_⟩ :=
            print_begins style item (printItems style items ++ rest)
          rw [print, List.cons_append, List.append_assoc, scanValue, if_neg (by decide),
            if_pos rfl] at scanned
          rw [text, skipSpace_cons visible] at scanned
          split at scanned
          next here =>
            obtain ⟨closes, -⟩ := List.cons.inj here
            exact absurd closes open_
          next =>
            split at scanned
            next => cases scanned
            next read behind inside =>
              rw [← text] at inside
              have finite := finite_of_scanItems
                (fun other member => only other member (others other member)) others (own scans)
                scans (by omega : weight item + weightOfItems items ≤ fuel) inside
              simpa only [← finite_iff, List.forall_mem_cons] using finite
  | object fields ih =>
      intro fuel rest left w enough scanned
      rw [finite_iff, forall_parts_object]
      refine ⟨by simp, fun field member => ⟨by simp, ?_⟩⟩
      obtain ⟨-, all⟩ := forall_parts_object.mp scannable
      cases fields with
      | nil => cases member
      | cons first fields =>
          obtain ⟨key, value⟩ := first
          simp only [weight, weightOfFields] at enough
          obtain ⟨fuel, rfl⟩ : ∃ less, fuel = less + 2 := ⟨fuel - 2, by omega⟩
          obtain ⟨⟨named, scans⟩, others⟩ := List.forall_mem_cons.mp all
          have only : ∀ field ∈ (key, value) :: fields, OnlyFinite style field.2 :=
            fun field listed => ih field listed (all field listed).2
          have own : OnlyFinite style value := only (key, value) List.mem_cons_self
          have later : ∀ field ∈ fields, OnlyFinite style field.2 :=
            (List.forall_mem_cons.mp only).2
          have text : print style (.object ((key, value) :: fields)) ++ rest =
              123 :: fieldText style key value (printFields style fields ++ rest) := by
            rw [print, fieldText]
            simp only [List.cons_append, List.append_assoc]
          have quoted : skipSpace (fieldText style key value (printFields style fields ++ rest)) =
              fieldText style key value (printFields style fields ++ rest) := skipSpace_cons rfl _
          rw [text, scanValue, if_neg (by decide), if_neg (by decide), if_pos rfl, quoted] at scanned
          split at scanned
          next here => cases (List.cons.inj here).1
          next =>
            split at scanned
            next => cases scanned
            next read behind inside =>
              have parts : ∀ part ∈ partsOfFields fields, part.Scannable style true := by
                intro part member
                obtain ⟨field, listed, rfl | within⟩ := mem_partsOfFields.mp member
                · exact (others field listed).1
                · exact (others field listed).2 part within
              have finite := finite_of_scanFields later parts named own scans (by omega) inside
              apply finite_iff.mp
              rcases List.mem_cons.mp member with rfl | behind
              · exact finite.1
              · exact finite.2 field behind
  | _ =>
      intro fuel rest left w enough scanned
      simp [Finite, parts]

/-- **A reader that refuses the constants** takes a printed value only if it has none. -/
theorem finite_of_read {v w : Json F} (scannable : v.Scannable style true)
    (result : read false (print style v) = .ok w) : v.Finite := by
  obtain ⟨c, tail, text, visible, -⟩ := print_begins style v []
  have bare : skipSpace (print style v) = print style v := by
    rw [List.append_nil] at text
    rw [text]
    exact skipSpace_cons visible tail
  unfold read at result
  rw [bare] at result
  split at result
  next => cases result
  next value rest scanned =>
    rw [← List.append_nil (print style v)] at scanned
    exact onlyFinite scannable ((weight_le_print style v).trans (by simp)) scanned

end Json

end ImposbroSearch.Foundation
