import Mathlib.Data.Int.Basic

/-! # The civil calendar

Days are counted from the first of January 1970 and dated by the Gregorian
calendar, continued into both directions. A year is taken to start in March, so
that a leap day is the last of its year, of its four years and of its era of
four hundred.
-/

namespace Calendar

structure CivilDate where
  year : Int
  month : Int
  day : Int
  deriving DecidableEq, Repr

/-- The days before the year. -/
def yearStart (year : Int) : Int := 365 * year + year / 4 - year / 100 + year / 400

/-- The days before the month, in a year that starts with month zero in March. -/
def monthStart (month : Int) : Int := (153 * month + 2) / 5

def ofCivil (date : CivilDate) : Int :=
  yearStart (if date.month ≤ 2 then date.year - 1 else date.year) +
    monthStart ((date.month + 9) % 12) + date.day - 719469

section era

/-! A day of an era, which has a leap day more than four centuries. -/

variable (n : Int)

def century : Int := min 3 (n / 36524)

def dayOfCentury : Int := n - 36524 * century n

def yearOfFour : Int := min 3 (dayOfCentury n % 1461 / 365)

def yearOfEra : Int := 100 * century n + 4 * (dayOfCentury n / 1461) + yearOfFour n

def dayOfYear : Int := dayOfCentury n % 1461 - 365 * yearOfFour n

end era

def civil (day : Int) : CivilDate :=
  let n := (day + 719468) % 146097
  let march := (5 * dayOfYear n + 2) / 153
  let month := (march + 2) % 12 + 1
  { year := 400 * ((day + 719468) / 146097) + yearOfEra n + (if month ≤ 2 then 1 else 0)
    month
    day := dayOfYear n - monthStart march + 1 }

/-! ## A date is the date of its day -/

section bounds

variable {n : Int}

theorem century_spec (h0 : 0 ≤ n) (h1 : n < 146097) :
    0 ≤ century n ∧ century n ≤ 3 ∧ 0 ≤ dayOfCentury n ∧ dayOfCentury n ≤ 36524 := by
  unfold dayOfCentury century
  omega

theorem yearOfFour_spec (n : Int) :
    0 ≤ yearOfFour n ∧ yearOfFour n ≤ 3 ∧ 0 ≤ dayOfYear n ∧ dayOfYear n ≤ 365 := by
  unfold dayOfYear yearOfFour
  omega

theorem yearOfEra_spec (h0 : 0 ≤ n) (h1 : n < 146097) :
    0 ≤ yearOfEra n ∧ yearOfEra n < 400 ∧
      n = 365 * yearOfEra n + yearOfEra n / 4 - yearOfEra n / 100 + dayOfYear n := by
  obtain ⟨hc0, hc3, hd0, hd1⟩ := century_spec h0 h1
  obtain ⟨hy0, hy3, -, -⟩ := yearOfFour_spec n
  have hfours : dayOfCentury n / 1461 ≤ 24 := by omega
  have hfour : yearOfEra n / 4 = 25 * century n + dayOfCentury n / 1461 := by
    unfold yearOfEra
    omega
  have hhundred : yearOfEra n / 100 = century n := by
    unfold yearOfEra
    omega
  have hday : n = 36524 * century n + dayOfCentury n := by
    unfold dayOfCentury
    omega
  rw [hfour, hhundred]
  unfold yearOfEra dayOfYear
  omega

theorem monthStart_spec {day : Int} (h0 : 0 ≤ day) (h1 : day ≤ 365) :
    0 ≤ (5 * day + 2) / 153 ∧ (5 * day + 2) / 153 ≤ 11 ∧
      0 ≤ day - monthStart ((5 * day + 2) / 153) ∧ day - monthStart ((5 * day + 2) / 153) ≤ 30 := by
  unfold monthStart
  omega

end bounds

theorem yearStart_era {era year : Int} (h0 : 0 ≤ year) (h1 : year < 400) :
    yearStart (400 * era + year) = 146097 * era + (365 * year + year / 4 - year / 100) := by
  unfold yearStart
  omega

theorem ofCivil_civil (day : Int) : ofCivil (civil day) = day := by
  have h0 : 0 ≤ (day + 719468) % 146097 := by omega
  have h1 : (day + 719468) % 146097 < 146097 := by omega
  obtain ⟨hy0, hy1, hn⟩ := yearOfEra_spec h0 h1
  obtain ⟨-, -, hd0, hd1⟩ := yearOfFour_spec ((day + 719468) % 146097)
  obtain ⟨hm0, hm1, -, -⟩ := monthStart_spec hd0 hd1
  have hsplit := Int.mul_ediv_add_emod (day + 719468) 146097
  unfold ofCivil civil
  dsimp only
  generalize (day + 719468) % 146097 = n at *
  have hyear : ∀ year march : Int, (if (march + 2) % 12 + 1 ≤ 2
      then year + (if (march + 2) % 12 + 1 ≤ 2 then 1 else 0) - 1
      else year + (if (march + 2) % 12 + 1 ≤ 2 then 1 else 0)) = year := by
    intro year march
    split
    · omega
    · omega
  have hmonth : ((((5 * dayOfYear n + 2) / 153 + 2) % 12 + 1) + 9) % 12 =
      (5 * dayOfYear n + 2) / 153 := by omega
  rw [hyear, hmonth, yearStart_era hy0 hy1]
  omega

theorem civil_injective {a b : Int} (h : civil a = civil b) : a = b := by
  rw [← ofCivil_civil a, h, ofCivil_civil]

theorem civil_month (day : Int) : 1 ≤ (civil day).month ∧ (civil day).month ≤ 12 := by
  unfold civil
  dsimp only
  omega

theorem civil_day (day : Int) : 1 ≤ (civil day).day ∧ (civil day).day ≤ 31 := by
  obtain ⟨-, -, hd0, hd1⟩ := yearOfFour_spec ((day + 719468) % 146097)
  obtain ⟨-, -, h0, h1⟩ := monthStart_spec hd0 hd1
  unfold civil
  dsimp only
  omega

/-- The year of a time that JavaScript can tell has six digits at most. -/
theorem natAbs_civil_year_lt {day : Int} (hlow : -100000000 ≤ day) (hhigh : day ≤ 100000000) :
    (civil day).year.natAbs < 1000000 := by
  have h0 : 0 ≤ (day + 719468) % 146097 := by omega
  have h1 : (day + 719468) % 146097 < 146097 := by omega
  obtain ⟨hy0, hy1, -⟩ := yearOfEra_spec h0 h1
  unfold civil
  dsimp only
  generalize yearOfEra ((day + 719468) % 146097) = year at *
  split
  · omega
  · omega

/-- A day earlier in the month. -/
theorem ofCivil_day (date : CivilDate) (day : Int) :
    ofCivil { date with day } = ofCivil date - (date.day - day) := by
  unfold ofCivil
  dsimp only
  omega

/-- From the last day of 1969 on. -/
theorem le_civil_year {day : Int} (h : -1 ≤ day) : 1969 ≤ (civil day).year := by
  have h0 : 0 ≤ (day + 719468) % 146097 := by omega
  have h1 : (day + 719468) % 146097 < 146097 := by omega
  obtain ⟨hy0, hy1, hn⟩ := yearOfEra_spec h0 h1
  obtain ⟨-, -, hd0, hd1⟩ := yearOfFour_spec ((day + 719468) % 146097)
  have hsplit := Int.mul_ediv_add_emod (day + 719468) 146097
  unfold civil
  dsimp only
  generalize (day + 719468) % 146097 = n at *
  split
  · omega
  · omega

/-- Up to the last day of 9999. -/
theorem civil_year_le {day : Int} (hlow : -1 ≤ day) (hhigh : day ≤ 2932896) :
    (civil day).year ≤ 9999 := by
  have h0 : 0 ≤ (day + 719468) % 146097 := by omega
  have h1 : (day + 719468) % 146097 < 146097 := by omega
  obtain ⟨hy0, hy1, hn⟩ := yearOfEra_spec h0 h1
  obtain ⟨-, -, hd0, hd1⟩ := yearOfFour_spec ((day + 719468) % 146097)
  have hsplit := Int.mul_ediv_add_emod (day + 719468) 146097
  unfold civil
  dsimp only
  generalize (day + 719468) % 146097 = n at *
  generalize (day + 719468) / 146097 = era at *
  have hera : 4 ≤ era ∧ era ≤ 24 := by omega
  by_cases hlast : era = 24 ∧ yearOfEra n = 399
  · rw [hlast.2] at hn
    have hdecember : 0 ≤ (5 * dayOfYear n + 2) / 153 ∧ (5 * dayOfYear n + 2) / 153 ≤ 9 := by omega
    have hmonth : ((5 * dayOfYear n + 2) / 153 + 2) % 12 = (5 * dayOfYear n + 2) / 153 + 2 :=
      Int.emod_eq_of_lt (by omega) (by omega)
    rw [hmonth, hlast.1, hlast.2]
    split
    · omega
    · omega
  · split
    · omega
    · omega

end Calendar
