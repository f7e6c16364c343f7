import ImposbroSearch.Indexing.EventParsing

/-!
# Times of events

The producer prints the time of an event with `isoformat`, and the parser requires the grammar
of RFC 3339 of it. What is printed is in the grammar, with a fraction or without one, so every
time is read back as it was.
-/

namespace ImposbroSearch.Indexing.EventEnvelope

open ImposbroSearch.Foundation ImposbroSearch.ControlPlane

variable {F : Type}

/-! ## Templates -/

theorem matchesTemplate_digits {digits : Text} (all : digits.all isDigit = true)
    (template text : Text) :
    matchesTemplate (List.replicate digits.length 48 ++ template) (digits ++ text) =
      matchesTemplate template text := by
  induction digits with
  | nil => rfl
  | cons c digits ih =>
      rw [List.all_cons, Bool.and_eq_true] at all
      show ((if (48 : ℕ) = 48 then isDigit c else decide (c = 48)) &&
        matchesTemplate (List.replicate digits.length 48 ++ template) (digits ++ text)) = _
      rw [if_pos rfl, all.1, Bool.true_and, ih all.2]

theorem matchesTemplate_padded {width n : ℕ} (positive : 0 < width) (small : n < 10 ^ width)
    (template text : Text) :
    matchesTemplate (List.replicate width 48 ++ template) (padded width n ++ text) =
      matchesTemplate template text := by
  have digits := matchesTemplate_digits (padded_all_digit width n) template text
  rwa [padded_length positive small] at digits

theorem matchesTemplate_separator {separator : ℕ} (other : separator ≠ 48) (template text : Text) :
    matchesTemplate (separator :: template) (separator :: text) =
      matchesTemplate template text := by
  show ((if separator = 48 then isDigit separator else decide (separator = separator)) && _) = _
  rw [if_neg other, decide_eq_true rfl, Bool.true_and]

/-! ## What `isoformat` prints -/

/-- The date and the time of the day, down to the second. -/
def isoFront (t : Datetime) : Text :=
  padded 4 t.year ++ 45 :: (padded 2 t.month ++ 45 :: (padded 2 t.day ++ 84 ::
    (padded 2 t.hour ++ 58 :: (padded 2 t.minute ++ 58 :: padded 2 t.second))))

/-- The fraction and the zone. -/
def isoTail (microsecond : ℕ) : Text :=
  (if microsecond = 0 then [] else 46 :: padded 6 microsecond) ++ chars "+00:00"

theorem isoformat_eq (t : Datetime) : t.isoformat = isoFront t ++ isoTail t.microsecond := by
  simp only [isoFront, Timestamp.isoformat, isoTail, List.append_assoc, List.cons_append]

/-- The front is as long as the template. -/
theorem length_isoFront (t : Datetime) : (isoFront t).length = 19 := by
  obtain ⟨⟨-, year⟩, ⟨-, month⟩, -, day⟩ := t.date
  obtain ⟨hour, minute, second, -⟩ := t.time
  have two : ∀ n, n < 100 → (padded 2 n).length = 2 :=
    fun n small => padded_length (by norm_num) (by omega)
  have four : (padded 4 t.year).length = 4 := padded_length (by norm_num) (by omega)
  simp only [isoFront, List.length_append, List.length_cons, four, two t.month (by omega),
    two t.day (by omega), two t.hour (by omega), two t.minute (by omega),
    two t.second (by omega)]

theorem matchesTemplate_isoFront (t : Datetime) :
    matchesTemplate (chars "0000-00-00T00:00:00") (isoFront t) = true := by
  obtain ⟨⟨-, year⟩, ⟨-, month⟩, -, day⟩ := t.date
  obtain ⟨hour, minute, second, -⟩ := t.time
  have digits : ∀ n, n < 100 → ∀ template text, matchesTemplate
      (List.replicate 2 48 ++ template) (padded 2 n ++ text) = matchesTemplate template text :=
    fun n small => matchesTemplate_padded (by norm_num) (by omega)
  have template : chars "0000-00-00T00:00:00" = List.replicate 4 48 ++ 45 :: (List.replicate 2 48
    ++ 45 :: (List.replicate 2 48 ++ 84 :: (List.replicate 2 48 ++ 58 :: (List.replicate 2 48 ++
      58 :: (List.replicate 2 48 ++ []))))) := by decide
  -- nothing follows the seconds
  have ending := digits t.second (by omega) [] []
  rw [List.append_nil (padded 2 t.second)] at ending
  unfold isoFront
  rw [template, matchesTemplate_padded (by norm_num) (by omega),
    matchesTemplate_separator (by norm_num), digits t.month (by omega),
    matchesTemplate_separator (by norm_num), digits t.day (by omega),
    matchesTemplate_separator (by norm_num), digits t.hour (by omega),
    matchesTemplate_separator (by norm_num), digits t.minute (by omega),
    matchesTemplate_separator (by norm_num), ending]
  rfl

/-- **What `isoformat` prints** is in the grammar of the parser. -/
theorem isRfc3339_isoformat (t : Datetime) : isRfc3339 t.isoformat = true := by
  obtain ⟨-, -, -, microsecond⟩ := t.time
  unfold isRfc3339
  rw [isoformat_eq, List.take_left' (length_isoFront t), List.drop_left' (length_isoFront t),
    matchesTemplate_isoFront, Bool.true_and]
  unfold isoTail
  split_ifs with whole
  · -- the zone alone
    rfl
  · -- six digits, and the zone
    have six : (padded 6 t.microsecond).length = 6 := padded_length (by norm_num) (by omega)
    have all := List.all_eq_true.mp (padded_all_digit 6 t.microsecond)
    have taken : (padded 6 t.microsecond ++ chars "+00:00").takeWhile isDigit =
        padded 6 t.microsecond := by
      rw [List.takeWhile_append_of_pos all]
      exact List.append_nil _
    have dropped : (padded 6 t.microsecond ++ chars "+00:00").dropWhile isDigit =
        chars "+00:00" := by
      rw [List.dropWhile_append_of_pos all]
      rfl
    rw [List.cons_append, Bool.or_eq_true]
    refine Or.inr ?_
    simp only [taken, dropped, six]
    rfl

/-- Nothing that is printed is a letter behind `Y`: there is no `Z`. -/
theorem isoformat_lt (t : Datetime) : ∀ c ∈ t.isoformat, c < 90 := by
  have padding : ∀ width n, ∀ c ∈ padded width n, c < 90 := by
    intro width n c member
    have digit := List.all_eq_true.mp (padded_all_digit width n) c member
    unfold isDigit at digit
    simp only [Bool.and_eq_true, decide_eq_true_eq] at digit
    omega
  have fraction : ∀ c ∈ (if t.microsecond = 0 then [] else 46 :: padded 6 t.microsecond : Text),
      c < 90 := by
    split_ifs
    · exact fun c member => absurd member List.not_mem_nil
    · exact List.forall_mem_cons.mpr ⟨by norm_num, padding _ _⟩
  unfold Timestamp.isoformat
  simp only [List.forall_mem_append, List.forall_mem_cons]
  exact ⟨padding _ _, by norm_num, padding _ _, by norm_num, padding _ _, by norm_num,
    padding _ _, by norm_num, padding _ _, by norm_num, padding _ _, fraction, by decide⟩

/-! ## What the parser reads -/

theorem replaceZ_eq_self {text : Text} (other : ∀ c ∈ text, c ≠ 90) : replaceZ text = text := by
  unfold replaceZ
  induction text with
  | nil => rfl
  | cons c text ih =>
      rw [List.forall_mem_cons] at other
      rw [List.flatMap_cons, if_neg other.1, ih other.2]
      rfl

theorem timestamp_of_scanned {otherFormats : Text → Option Moment} {text : Text}
    {wall parsed : Datetime} {offset : ℤ} (valid : isRfc3339 text = true)
    (scanned : fromisoformat otherFormats (replaceZ text) = some ⟨wall, some offset⟩)
    (utc : toUtc wall offset = some parsed) :
    timestamp otherFormats (.str text : Json F) = .ok parsed := by
  unfold timestamp
  simp only [scanned, utc]
  exact if_pos valid

/-- **A time that was printed** is read back. -/
theorem timestamp_isoformat (otherFormats : Text → Option Moment) (t : Datetime) :
    timestamp otherFormats (.str t.isoformat : Json F) = .ok t := by
  have plain : ∀ c ∈ t.isoformat, c ≠ 90 := fun c member => (isoformat_lt t c member).ne
  refine timestamp_of_scanned (isRfc3339_isoformat t) ?_ (toUtc_zero t)
  rw [replaceZ_eq_self plain, fromisoformat_isoformat]

end ImposbroSearch.Indexing.EventEnvelope
