import Feca.Base
import Feca.Calendar.Text

/-! # What the clock shows

The reminders compare the date of an event, in UTC, with what a clock shows in
the timezone of a member, text with text. In years of four digits the texts are
equal on the same day and only then.
-/

namespace Feca.Reminders

open Calendar

def MINUTE : Int := 60 * 1000

def HOUR : Int := 60 * MINUTE

def DAY : Int := 24 * HOUR

def utcDay (value : Date) : Int := value / DAY

def addDays (value : Date) (days : Int) : Date := value + days * DAY

/-- `Date.UTC`: a year below 100 is one of the twentieth century. -/
def dateUtc (date : CivilDate) : Date :=
  ofCivil { date with year :=
    if 0 ≤ date.year ∧ date.year ≤ 99 then 1900 + date.year else date.year } * DAY

def startOfUtcDay (value : Date) : Date := dateUtc (civil (utcDay value))

/-- `value.toISOString().slice(0, 10)`. -/
def toDateOnlyString (value : Date) : String :=
  String.ofList ((isoDate (civil (utcDay value))).take 10)

def shiftDateOnly (dateOnly : String) (offsetDays : Int) : String :=
  toDateOnlyString (addDays (ofCivil (readDate dateOnly.toList) * DAY) offsetDays)

structure LocalDateTime where
  date : String
  hour : Nat
  minute : Nat
  weekday : Int
  deriving DecidableEq, Repr

/-- `Intl.DateTimeFormat`: the timezones that it knows, and how it writes midnight. -/
structure Intl where
  offset : String → Date → Option Int
  midnightIs24 : Bool

/-- The parts of a date in `en-US`: the year as it is, without its era, all else
with two digits. -/
def formatDate (date : CivilDate) : String :=
  String.ofList (Nat.toDigits 10 (if date.year ≤ 0 then 1 - date.year else date.year).toNat ++
    ('-' :: padded 2 date.month.toNat ++ '-' :: padded 2 date.day.toNat))

def formatHour (midnightIs24 : Bool) (time : Int) : Nat :=
  if time / HOUR = 0 ∧ midnightIs24 then 24 else (time / HOUR).toNat

/-- What a clock shows that is so far ahead of the epoch. -/
def clockAt (intl : Intl) (shown : Int) : LocalDateTime where
  date := formatDate (civil (shown / DAY))
  hour := formatHour intl.midnightIs24 (shown % DAY)
  minute := (shown % HOUR / MINUTE).toNat
  weekday := (shown / DAY + 4) % 7

def tryGetLocalDateTime (intl : Intl) (date : Date) (timezone : String) : Option LocalDateTime :=
  (intl.offset timezone date).map fun offset => clockAt intl (date + offset)

def isDueAtLocalTime (localTime : LocalDateTime) (hour minute : Nat) : Bool :=
  let currentMinutes := localTime.hour * 60 + localTime.minute
  let targetMinutes := hour * 60 + minute
  decide (currentMinutes ≥ targetMinutes) && decide (currentMinutes < targetMinutes + 60)

/-! ## Days as text -/

/-- What a `Date` can hold. -/
def TimeValue (value : Int) : Prop := -100000000 * DAY ≤ value ∧ value ≤ 100000000 * DAY

/-- From the last day of 1969 to the last of 9999. -/
def FourDigits (value : Date) : Prop := -1 ≤ utcDay value ∧ utcDay value ≤ 2932896

section text

variable {value other : Date}

theorem FourDigits.plain (h : FourDigits value) : (civil (utcDay value)).Plain := by
  have hlow := le_civil_year h.1
  exact plain_civil ⟨by omega, civil_year_le h.1 h.2⟩

theorem far_of_not_plain
    (h : ¬ (0 ≤ (civil (utcDay value)).year ∧ (civil (utcDay value)).year ≤ 9999)) :
    utcDay value < -1 ∨ 2932896 < utcDay value := by
  by_contra hnot
  have hnear : FourDigits value := ⟨by omega, by omega⟩
  exact h hnear.plain.year

theorem toDateOnlyString_of_plain (h : (civil (utcDay value)).Plain) :
    toDateOnlyString value = String.ofList (isoDate (civil (utcDay value))) := by
  unfold toDateOnlyString
  rw [List.take_of_length_le (by rw [length_isoDate h])]

theorem length_toDateOnlyString (value : Date) : (toDateOnlyString value).toList.length = 10 := by
  have hlength := ten_le_length_isoDate (civil (utcDay value))
  unfold toDateOnlyString
  rw [String.toList_ofList, List.length_take]
  omega

theorem head_toDateOnlyString (value : Date) : (toDateOnlyString value).toList.head? =
    (isoDate (civil (utcDay value))).head? := by
  unfold toDateOnlyString
  rw [String.toList_ofList, List.head?_take, if_neg (by decide)]

/-- Equal texts have equal days, where one of them is of such a year. -/
theorem toDateOnlyString_inj (h : FourDigits value) :
    toDateOnlyString value = toDateOnlyString other ↔ utcDay value = utcDay other := by
  constructor
  · intro heq
    have hhead : (isoDate (civil (utcDay value))).head? = (isoDate (civil (utcDay other))).head? := by
      rw [← head_toDateOnlyString, heq, head_toDateOnlyString]
    have hother : (civil (utcDay other)).Plain := by
      have hdigit := isDigit_head_isoDate.mpr h.plain.year
      rw [hhead] at hdigit
      exact plain_civil (isDigit_head_isoDate.mp hdigit)
    rw [toDateOnlyString_of_plain h.plain, toDateOnlyString_of_plain hother,
      String.ofList_inj] at heq
    have hread := congrArg readDate heq
    rw [readDate_isoDate h.plain, readDate_isoDate hother] at hread
    exact civil_injective hread
  · intro heq
    unfold toDateOnlyString
    rw [heq]

theorem shiftDateOnly_of_plain (h : (civil (utcDay value)).Plain) (days : Int) :
    shiftDateOnly (toDateOnlyString value) days = toDateOnlyString (addDays value days) := by
  unfold shiftDateOnly
  rw [toDateOnlyString_of_plain h, String.toList_ofList, readDate_isoDate h, ofCivil_civil]
  have hday : utcDay (addDays (utcDay value * DAY) days) = utcDay (addDays value days) := by
    unfold utcDay addDays DAY HOUR MINUTE
    omega
  unfold toDateOnlyString
  rw [hday]

/-- Of any other year the first day of the month is shifted. -/
theorem shiftDateOnly_of_not_plain (htime : TimeValue value)
    (h : ¬ (0 ≤ (civil (utcDay value)).year ∧ (civil (utcDay value)).year ≤ 9999)) (days : Int) :
    ∃ date, shiftDateOnly (toDateOnlyString value) days = toDateOnlyString date ∧
      utcDay value + days - 30 ≤ utcDay date ∧ utcDay date ≤ utcDay value + days := by
  have hyear : (civil (utcDay value)).year.natAbs < 1000000 := by
    refine natAbs_civil_year_lt ?_ ?_
    · unfold TimeValue utcDay DAY HOUR MINUTE at *
      omega
    · unfold TimeValue utcDay DAY HOUR MINUTE at *
      omega
  have hday := civil_day (utcDay value)
  have hread := readDate_of_signed h hyear (civil_month (utcDay value))
  unfold shiftDateOnly
  rw [show (toDateOnlyString value).toList = (isoDate (civil (utcDay value))).take 10 from
    String.toList_ofList, hread, ofCivil_day, ofCivil_civil]
  refine ⟨_, rfl, ?_, ?_⟩
  · unfold utcDay addDays DAY HOUR MINUTE at *
    omega
  · unfold utcDay addDays DAY HOUR MINUTE at *
    omega

/-- The two ways to write a date agree. -/
theorem formatDate_eq (h : FourDigits value) :
    formatDate (civil (utcDay value)) = toDateOnlyString value := by
  have hlow := le_civil_year h.1
  have hpositive : ¬ (civil (utcDay value)).year ≤ 0 := by omega
  have hyear : padded 4 (civil (utcDay value)).year.toNat =
      Nat.toDigits 10 (civil (utcDay value)).year.toNat := by
    refine padded_succ_of_lt ?_
    rw [← Nat.not_le, Nat.length_toDigits_le_iff (by decide) (by decide)]
    omega
  rw [toDateOnlyString_of_plain h.plain, isoDate_of_plain h.plain, hyear]
  unfold formatDate
  rw [if_neg hpositive]

theorem startOfUtcDay_eq (h : -1 ≤ utcDay value) : startOfUtcDay value = utcDay value * DAY := by
  have hlow := le_civil_year h
  have hlater : ¬ (0 ≤ (civil (utcDay value)).year ∧ (civil (utcDay value)).year ≤ 99) := by omega
  unfold startOfUtcDay dateUtc
  rw [if_neg hlater]
  exact congrArg (· * DAY) (ofCivil_civil (utcDay value))

end text

/-! ## The due hour -/

/-- The hour is due for sixty minutes. -/
theorem isDueAtLocalTime_iff (intl : Intl) (shown : Int) {hour : Nat} (h1 : 1 ≤ hour)
    (h22 : hour ≤ 22) : isDueAtLocalTime (clockAt intl shown) hour 0 = true ↔
      hour * HOUR ≤ shown % DAY ∧ shown % DAY < (hour + 1) * HOUR := by
  have hminute : shown % HOUR = shown % DAY % HOUR := by
    unfold DAY HOUR MINUTE
    omega
  unfold isDueAtLocalTime clockAt formatHour
  rw [hminute]
  dsimp only
  rw [Bool.and_eq_true, decide_eq_true_eq, decide_eq_true_eq]
  have h0 : 0 ≤ shown % DAY := by
    unfold DAY HOUR MINUTE
    omega
  have hlast : shown % DAY < DAY := by
    unfold DAY HOUR MINUTE
    omega
  generalize shown % DAY = time at *
  unfold DAY HOUR MINUTE at *
  split
  · rename_i hmidnight
    omega
  · omega

end Feca.Reminders
