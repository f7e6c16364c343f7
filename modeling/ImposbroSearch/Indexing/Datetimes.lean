import ImposbroSearch.ControlPlane.Integrity
import Mathlib.Algebra.Order.BigOperators.Group.List
import Mathlib.Data.Int.Log
import Mathlib.Data.Rat.Floor

/-!
# Datetimes

Datetimes of Python, which may have an offset to UTC. They are printed by `isoformat` and
read by `fromisoformat`, which takes many formats: the one that is printed is followed
here, the other ones are a parameter. A time stamp is a float of seconds.
-/

namespace ImposbroSearch.Indexing

open ImposbroSearch.Foundation ImposbroSearch.ControlPlane

/-! ## The calendar -/

def isLeapYear (year : ℕ) : Bool := year % 4 = 0 && (year % 100 ≠ 0 || year % 400 = 0)

def daysInMonth (year month : ℕ) : ℕ :=
  if month = 2 then if isLeapYear year then 29 else 28
  else if month = 4 ∨ month = 6 ∨ month = 9 ∨ month = 11 then 30
  else 31

theorem daysInMonth_le (year month : ℕ) : daysInMonth year month ≤ 31 := by
  unfold daysInMonth
  split_ifs
  all_goals norm_num

/-- `datetime`, apart from its zone: a day of the calendar and a time of the day. -/
structure Datetime extends Timestamp where
  day_le : day ≤ daysInMonth year month

@[ext] theorem Datetime.ext {first second : Datetime}
    (same : first.toTimestamp = second.toTimestamp) : first = second := by
  cases first
  cases second
  cases same
  rfl

namespace Datetime

/-- `datetime(…)`, which raises where there is no such day or time. -/
def make (year month day hour minute second microsecond : ℕ) : Option Datetime :=
  if valid : ((1 ≤ year ∧ year ≤ 9999) ∧ (1 ≤ month ∧ month ≤ 12) ∧ 1 ≤ day ∧
      day ≤ daysInMonth year month) ∧
        hour < 24 ∧ minute < 60 ∧ second < 60 ∧ microsecond < 1000000 then
    some
      { year, month, day, hour, minute, second, microsecond
        date := ⟨valid.1.1, valid.1.2.1, valid.1.2.2.1, valid.1.2.2.2.trans (daysInMonth_le _ _)⟩
        time := valid.2
        day_le := valid.1.2.2.2 }
  else none

theorem make_self (t : Datetime) :
    make t.year t.month t.day t.hour t.minute t.second t.microsecond = some t := by
  have valid : ((1 ≤ t.year ∧ t.year ≤ 9999) ∧ (1 ≤ t.month ∧ t.month ≤ 12) ∧ 1 ≤ t.day ∧
      t.day ≤ daysInMonth t.year t.month) ∧
        t.hour < 24 ∧ t.minute < 60 ∧ t.second < 60 ∧ t.microsecond < 1000000 :=
    ⟨⟨t.date.1, t.date.2.1, t.date.2.2.1, t.day_le⟩, t.time⟩
  unfold make
  rw [dif_pos valid]

/-- The time of the day. -/
def microsecondOfDay (t : Datetime) : ℕ :=
  ((t.hour * 60 + t.minute) * 60 + t.second) * 1000000 + t.microsecond

/-- `toordinal` -/
def toordinal (t : Datetime) : ℤ :=
  (t.year - 1) * 365 + (t.year - 1) / 4 - (t.year - 1) / 100 + (t.year - 1) / 400 +
    ((List.range (t.month - 1)).map fun month => (daysInMonth t.year (month + 1) : ℤ)).sum + t.day

/-- Microseconds since the Unix epoch, of a datetime in UTC. -/
def sinceEpoch (t : Datetime) : ℤ :=
  (t.toordinal - 719163) * 86400000000 + t.microsecondOfDay

end Datetime

/-! ## Floats -/

def roundHalfEven (x : ℚ) : ℤ :=
  if x - ⌊x⌋ < 1 / 2 then ⌊x⌋
  else if 1 / 2 < x - ⌊x⌋ then ⌊x⌋ + 1
  else if ⌊x⌋ % 2 = 0 then ⌊x⌋
  else ⌊x⌋ + 1

/-- The nearest double, of a number that is not beyond the doubles. -/
def toDouble (x : ℚ) : ℚ :=
  if x = 0 then 0
  else roundHalfEven (x * 2 ^ (52 - Int.log 2 |x|)) / 2 ^ (52 - Int.log 2 |x|)

/-- `int(x)` -/
def truncate (x : ℚ) : ℤ := if 0 ≤ x then ⌊x⌋ else ⌈x⌉

/-- `int(t.timestamp() * 1000)` -/
def milliseconds (t : Datetime) : ℤ := truncate (toDouble (toDouble (t.sinceEpoch / 1000000) * 1000))

theorem roundHalfEven_nonneg {x : ℚ} (nonneg : 0 ≤ x) : 0 ≤ roundHalfEven x := by
  have floor := Int.floor_nonneg.mpr nonneg
  unfold roundHalfEven
  split_ifs
  all_goals omega

theorem toDouble_nonneg {x : ℚ} (nonneg : 0 ≤ x) : 0 ≤ toDouble x := by
  unfold toDouble
  split_ifs
  · exact le_rfl
  · have scale : (0 : ℚ) ≤ 2 ^ (52 - Int.log 2 |x|) := zpow_nonneg (by norm_num) _
    have rounded := roundHalfEven_nonneg (mul_nonneg nonneg scale)
    exact div_nonneg (by exact_mod_cast rounded) scale

/-- A time at or after the epoch has no negative time stamp. -/
theorem milliseconds_nonneg {t : Datetime} (after : 0 ≤ t.sinceEpoch) : 0 ≤ milliseconds t := by
  have seconds : (0 : ℚ) ≤ t.sinceEpoch / 1000000 := by
    have cast : (0 : ℚ) ≤ t.sinceEpoch := by exact_mod_cast after
    positivity
  have product := toDouble_nonneg (mul_nonneg (toDouble_nonneg seconds) (by norm_num : (0 : ℚ) ≤ 1000))
  unfold milliseconds truncate
  rw [if_pos product]
  exact Int.floor_nonneg.mpr product

theorem roundHalfEven_le (x : ℚ) : (roundHalfEven x : ℚ) ≤ x + 1 := by
  have floor := Int.floor_le x
  unfold roundHalfEven
  split_ifs
  all_goals
    push_cast
    linarith

/-- Rounding moves a number by less than itself. -/
theorem toDouble_le {x : ℚ} (nonneg : 0 ≤ x) : toDouble x ≤ 2 * x := by
  unfold toDouble
  split_ifs with zero
  · linarith
  · have positive : 0 < x := lt_of_le_of_ne nonneg (Ne.symm zero)
    have scale : (0 : ℚ) < 2 ^ (52 - Int.log 2 |x|) := zpow_pos (by norm_num) _
    rw [div_le_iff₀ scale]
    have rounded := roundHalfEven_le (x * 2 ^ (52 - Int.log 2 |x|))
    have unit : (1 : ℚ) ≤ x * 2 ^ (52 - Int.log 2 |x|) := by
      have log := Int.zpow_log_le_self (b := 2) (by norm_num) positive
      rw [abs_of_pos positive, zpow_sub₀ (by norm_num), mul_div_assoc',
        le_div_iff₀ (zpow_pos (by norm_num) _)]
      push_cast at log
      have big : (1 : ℚ) ≤ 2 ^ (52 : ℤ) := by norm_num
      nlinarith [mul_le_mul_of_nonneg_left big nonneg]
    linarith

theorem toordinal_le (t : Datetime) : t.toordinal ≤ 3652200 := by
  have months : ((List.range (t.month - 1)).map fun month =>
      (daysInMonth t.year (month + 1) : ℤ)).sum ≤ 341 := by
    have each : ∀ days ∈ (List.range (t.month - 1)).map fun month =>
        (daysInMonth t.year (month + 1) : ℤ), days ≤ 31 := by
      intro days member
      obtain ⟨month, -, rfl⟩ := List.mem_map.mp member
      exact_mod_cast daysInMonth_le t.year (month + 1)
    have total := List.sum_le_card_nsmul _ _ each
    rw [List.length_map, List.length_range, nsmul_eq_mul] at total
    have twelve := t.date.2.1.2
    have few : ((t.month - 1 : ℕ) : ℤ) ≤ 11 := by omega
    linarith
  have days := t.day_le.trans (daysInMonth_le t.year t.month)
  have years := t.date.1.2
  unfold Datetime.toordinal
  omega

/-- A time stamp in milliseconds has less than 64 bits. -/
theorem milliseconds_le (t : Datetime) (after : 0 ≤ t.sinceEpoch) : milliseconds t ≤ 2 ^ 62 := by
  have bound : t.sinceEpoch ≤ 2 ^ 59 := by
    have ordinal := toordinal_le t
    have time := t.time
    unfold Datetime.sinceEpoch Datetime.microsecondOfDay
    omega
  have seconds : (0 : ℚ) ≤ t.sinceEpoch / 1000000 := by
    have cast : (0 : ℚ) ≤ t.sinceEpoch := by exact_mod_cast after
    positivity
  have rounded := toDouble_le seconds
  have product := toDouble_nonneg
    (mul_nonneg (toDouble_nonneg seconds) (by norm_num : (0 : ℚ) ≤ 1000))
  have again := toDouble_le (mul_nonneg (toDouble_nonneg seconds) (by norm_num : (0 : ℚ) ≤ 1000))
  unfold milliseconds truncate
  rw [if_pos product]
  have cast : (t.sinceEpoch : ℚ) ≤ 2 ^ 59 := by exact_mod_cast bound
  have total : toDouble (toDouble (t.sinceEpoch / 1000000) * 1000) ≤ 2 ^ 62 := by
    linarith
  have floor := Int.floor_le (toDouble (toDouble (t.sinceEpoch / 1000000) * 1000))
  exact_mod_cast floor.trans total

/-! ## Zones -/

/-- A datetime with its zone: the offset to UTC in microseconds, if it has one. -/
structure Moment where
  wall : Datetime
  offset : Option ℤ

/-- The day before and the day after. -/
def shiftDay (t : Datetime) (days : ℤ) : Option (ℕ × ℕ × ℕ) :=
  if days = 0 then some (t.year, t.month, t.day)
  else if days = 1 then
    if t.day < daysInMonth t.year t.month then some (t.year, t.month, t.day + 1)
    else if t.month < 12 then some (t.year, t.month + 1, 1)
    else some (t.year + 1, 1, 1)
  else if days = -1 then
    if 1 < t.day then some (t.year, t.month, t.day - 1)
    else if 1 < t.month then some (t.year, t.month - 1, daysInMonth t.year (t.month - 1))
    else some (t.year - 1, 12, 31)
  else none

/-- `astimezone(timezone.utc)`, which overflows at both ends of the calendar. -/
def toUtc (wall : Datetime) (offset : ℤ) : Option Datetime :=
  let time : ℤ := wall.microsecondOfDay - offset
  let rest := (time % 86400000000).toNat
  (shiftDay wall (time / 86400000000)).bind fun date =>
    Datetime.make date.1 date.2.1 date.2.2 (rest / 3600000000) (rest / 60000000 % 60)
      (rest / 1000000 % 60) (rest % 1000000)

theorem toUtc_zero (t : Datetime) : toUtc t 0 = some t := by
  obtain ⟨hour, minute, second, microsecond⟩ := t.time
  have small : t.microsecondOfDay < 86400000000 := by
    unfold Datetime.microsecondOfDay
    omega
  have rest : (((t.microsecondOfDay : ℤ) - 0) % 86400000000).toNat = t.microsecondOfDay := by omega
  have same : ((t.microsecondOfDay : ℤ) - 0) / 86400000000 = 0 := by omega
  unfold toUtc
  simp only [rest, same]
  rw [shiftDay, if_pos rfl, Option.bind_some]
  have hours : t.microsecondOfDay / 3600000000 = t.hour := by
    unfold Datetime.microsecondOfDay
    omega
  have minutes : t.microsecondOfDay / 60000000 % 60 = t.minute := by
    unfold Datetime.microsecondOfDay
    omega
  have seconds : t.microsecondOfDay / 1000000 % 60 = t.second := by
    unfold Datetime.microsecondOfDay
    omega
  have fraction : t.microsecondOfDay % 1000000 = t.microsecond := by
    unfold Datetime.microsecondOfDay
    omega
  rw [hours, minutes, seconds, fraction]
  exact t.make_self

/-! ## Reading -/

/-- A number of known width, and the text behind it. -/
def scanDigits (width : ℕ) (text : Text) : Option (ℕ × Text) :=
  if (text.take width).length = width ∧ (text.take width).all isDigit then
    some (digitsValue (text.take width), text.drop width)
  else none

/-- The text behind a separator. -/
def scanSeparator (separator : ℕ) : Text → Option Text
  | [] => none
  | c :: rest => if c = separator then some rest else none

/-- A fraction of a second in microseconds, 0 where there is none. -/
def scanMicrosecond : Text → Option (ℕ × Text)
  | 46 :: rest =>
    let digits := rest.takeWhile isDigit
    if 1 ≤ digits.length ∧ digits.length ≤ 6 then
      some (digitsValue digits * 10 ^ (6 - digits.length), rest.dropWhile isDigit)
    else none
  | text => some (0, text)

/-- The offset at the end of a text. -/
def scanOffset : Text → Option (Option ℤ)
  | [] => some none
  | [90] => some (some 0)
  | sign :: rest =>
    if sign = 43 ∨ sign = 45 then
      (scanDigits 2 rest).bind fun (hours, rest) =>
        (scanSeparator 58 rest).bind fun rest =>
          (scanDigits 2 rest).bind fun (minutes, rest) =>
            if hours < 24 ∧ minutes < 60 ∧ rest = [] then
              let offset : ℤ := (hours * 60 + minutes) * 60000000
              some (some (if sign = 45 then -offset else offset))
            else none
    else none

/-- A text in the format of `isoformat`, with up to six digits of a fraction. -/
def scanMoment (text : Text) : Option Moment :=
  (scanDigits 4 text).bind fun (year, text) =>
    (scanSeparator 45 text).bind fun text =>
      (scanDigits 2 text).bind fun (month, text) =>
        (scanSeparator 45 text).bind fun text =>
          (scanDigits 2 text).bind fun (day, text) =>
            (scanSeparator 84 text).bind fun text =>
              (scanDigits 2 text).bind fun (hour, text) =>
                (scanSeparator 58 text).bind fun text =>
                  (scanDigits 2 text).bind fun (minute, text) =>
                    (scanSeparator 58 text).bind fun text =>
                      (scanDigits 2 text).bind fun (second, text) =>
                        (scanMicrosecond text).bind fun (microsecond, text) =>
                          (scanOffset text).bind fun offset =>
                            (Datetime.make year month day hour minute second microsecond).map
                              (⟨·, offset⟩)

/-- `datetime.fromisoformat`. Of a text in another format it reads what the parameter says. -/
def fromisoformat (otherFormats : Text → Option Moment) (text : Text) : Option Moment :=
  match scanMoment text with
  | some moment => some moment
  | none => otherFormats text

theorem padded_all_digit (width n : ℕ) : (padded width n).all isDigit = true := by
  unfold padded
  rw [List.all_append, natText_all_digit, Bool.and_true, List.all_eq_true]
  intro c member
  rw [List.eq_of_mem_replicate member]
  rfl

/-- **A padded number is read.** -/
theorem scanDigits_padded {width n : ℕ} (positive : 0 < width) (small : n < 10 ^ width)
    (rest : Text) : scanDigits width (padded width n ++ rest) = some (n, rest) := by
  have length := padded_length positive small
  have front : (padded width n ++ rest).take width = padded width n := by
    exact List.take_left' length
  have behind : (padded width n ++ rest).drop width = rest := by
    exact List.drop_left' length
  unfold scanDigits
  rw [front, behind, if_pos ⟨length, padded_all_digit width n⟩, digitsValue_padded]

theorem scanSeparator_cons (separator : ℕ) (rest : Text) :
    scanSeparator separator (separator :: rest) = some rest := if_pos rfl

theorem scanMicrosecond_isoformat {microsecond : ℕ} (small : microsecond < 1000000) :
    scanMicrosecond ((if microsecond = 0 then [] else 46 :: padded 6 microsecond) ++
      chars "+00:00") = some (microsecond, chars "+00:00") := by
  have sign : isDigit 43 = false := rfl
  split_ifs with zero
  · rw [zero]
    rfl
  · have length : (padded 6 microsecond).length = 6 := padded_length (by norm_num) (by omega)
    have digits : (padded 6 microsecond ++ chars "+00:00").takeWhile isDigit =
        padded 6 microsecond := by
      rw [List.takeWhile_append_of_pos
        (List.all_eq_true.mp (padded_all_digit 6 microsecond))]
      show padded 6 microsecond ++ [] = _
      rw [List.append_nil]
    have behind : (padded 6 microsecond ++ chars "+00:00").dropWhile isDigit = chars "+00:00" := by
      rw [List.dropWhile_append_of_pos
        (List.all_eq_true.mp (padded_all_digit 6 microsecond))]
      rfl
    rw [List.cons_append]
    unfold scanMicrosecond
    simp only [digits, behind, length]
    rw [if_pos (by norm_num), digitsValue_padded]
    simp

theorem scanOffset_utc : scanOffset (chars "+00:00") = some (some 0) := by decide

/-- **What is printed is read**, whatever the other formats are. -/
theorem fromisoformat_isoformat (otherFormats : Text → Option Moment) (t : Datetime) :
    fromisoformat otherFormats t.isoformat = some ⟨t, some 0⟩ := by
  obtain ⟨⟨-, year⟩, ⟨-, month⟩, -, day⟩ := t.date
  obtain ⟨hour, minute, second, microsecond⟩ := t.time
  have scanned : scanMoment t.isoformat = some ⟨t, some 0⟩ := by
    have years := scanDigits_padded (by norm_num : 0 < 4) (by omega : t.year < 10 ^ 4)
    have two : ∀ n, n < 100 → ∀ rest, scanDigits 2 (padded 2 n ++ rest) = some (n, rest) :=
      fun n small => scanDigits_padded (by norm_num) (by omega)
    unfold scanMoment Timestamp.isoformat
    simp only [years, two t.month (by omega), two t.day (by omega), two t.hour (by omega),
      two t.minute (by omega), two t.second (by omega), scanSeparator_cons,
      scanMicrosecond_isoformat microsecond, scanOffset_utc, t.make_self, Option.bind_some,
      Option.map_some]
  unfold fromisoformat
  rw [scanned]

end ImposbroSearch.Indexing
