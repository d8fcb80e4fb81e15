import Feca.Calendar.Civil

/-! # Dates as text

A date of a year with four digits is written with fixed positions, and is read
back from them. Other years have a sign and six digits.
-/

namespace Calendar

/-- In decimal, with zeros in front. -/
def padded (width n : Nat) : List Char :=
  List.replicate (width - (Nat.toDigits 10 n).length) '0' ++ Nat.toDigits 10 n

def number (digits : List Char) : Nat := Nat.ofDigitChars 10 digits 0

theorem number_padded (width n : Nat) : number (padded width n) = n := by
  unfold number padded
  rw [Nat.ofDigitChars_append, Nat.ofDigitChars_replicate_zero, Nat.mul_zero,
    Nat.ofDigitChars_ten_toDigits]

theorem le_length_padded (width n : Nat) : width ≤ (padded width n).length := by
  unfold padded
  rw [List.length_append, List.length_replicate]
  omega

theorem length_padded {width n : Nat} (h : (Nat.toDigits 10 n).length ≤ width) :
    (padded width n).length = width := by
  unfold padded
  rw [List.length_append, List.length_replicate]
  omega

theorem padded_succ_of_lt {width n : Nat} (h : width < (Nat.toDigits 10 n).length) :
    padded (width + 1) n = Nat.toDigits 10 n := by
  have hzero : width + 1 - (Nat.toDigits 10 n).length = 0 := by omega
  unfold padded
  rw [hzero]
  rfl

/-! ## Dates -/

def isoYear (year : Int) : List Char :=
  if 0 ≤ year ∧ year ≤ 9999 then padded 4 year.toNat
  else (if year < 0 then '-' else '+') :: padded 6 year.natAbs

def isoDate (date : CivilDate) : List Char :=
  isoYear date.year ++
    ('-' :: padded 2 date.month.toNat ++ '-' :: padded 2 date.day.toNat)

theorem ten_le_length_isoDate (date : CivilDate) : 10 ≤ (isoDate date).length := by
  have hmonth := le_length_padded 2 date.month.toNat
  have hday := le_length_padded 2 date.day.toNat
  have hyear : 4 ≤ (isoYear date.year).length := by
    have hfour := le_length_padded 4 date.year.toNat
    have hsix := le_length_padded 6 date.year.natAbs
    unfold isoYear
    split
    · exact hfour
    · rw [List.length_cons]
      omega
  unfold isoDate
  simp only [List.length_append, List.length_cons]
  omega

/-- The first ten characters of a date; a year with six digits leaves no room for the day. -/
def readDate (text : List Char) : CivilDate :=
  match text with
  | '-' :: rest => ⟨-number (rest.take 6), number ((rest.drop 7).take 2), 1⟩
  | '+' :: rest => ⟨number (rest.take 6), number ((rest.drop 7).take 2), 1⟩
  | text => ⟨number (text.take 4), number ((text.drop 5).take 2), number ((text.drop 8).take 2)⟩

theorem readDate_minus (rest : List Char) : readDate ('-' :: rest) =
    ⟨-number (rest.take 6), number ((rest.drop 7).take 2), 1⟩ := rfl

theorem readDate_plus (rest : List Char) : readDate ('+' :: rest) =
    ⟨number (rest.take 6), number ((rest.drop 7).take 2), 1⟩ := rfl

/-- A date that ten characters can show. -/
structure CivilDate.Plain (date : CivilDate) : Prop where
  year : 0 ≤ date.year ∧ date.year ≤ 9999
  month : 1 ≤ date.month ∧ date.month ≤ 12
  day : 1 ≤ date.day ∧ date.day ≤ 31

theorem plain_civil {day : Int} (h : 0 ≤ (civil day).year ∧ (civil day).year ≤ 9999) :
    (civil day).Plain where
  year := h
  month := civil_month day
  day := civil_day day

section plain

variable {date : CivilDate}

theorem isoDate_of_plain (h : date.Plain) : isoDate date = padded 4 date.year.toNat ++
    ('-' :: padded 2 date.month.toNat ++ '-' :: padded 2 date.day.toNat) := by
  unfold isoDate isoYear
  rw [if_pos h.year]

theorem length_year (h : date.Plain) : (padded 4 date.year.toNat).length = 4 := by
  obtain ⟨h0, h1⟩ := h.year
  exact length_padded ((Nat.length_toDigits_le_iff (by decide) (by decide)).mpr (by omega))

theorem length_month (h : date.Plain) : (padded 2 date.month.toNat).length = 2 := by
  obtain ⟨h0, h1⟩ := h.month
  exact length_padded ((Nat.length_toDigits_le_iff (by decide) (by decide)).mpr (by omega))

theorem length_day (h : date.Plain) : (padded 2 date.day.toNat).length = 2 := by
  obtain ⟨h0, h1⟩ := h.day
  exact length_padded ((Nat.length_toDigits_le_iff (by decide) (by decide)).mpr (by omega))

theorem length_isoDate (h : date.Plain) : (isoDate date).length = 10 := by
  rw [isoDate_of_plain h]
  simp [length_year h, length_month h, length_day h]

theorem isDigit_padded (width n : Nat) : ∀ c ∈ padded width n, c.isDigit := by
  intro c hc
  rcases List.mem_append.mp hc with hc | hc
  · rw [(List.mem_replicate.mp hc).2]
    decide
  · exact Nat.isDigit_of_mem_toDigits (by decide) (by decide) hc

theorem readDate_isoDate (h : date.Plain) : readDate (isoDate date) = date := by
  have hyear := length_year h
  have hmonth := length_month h
  have hday := length_day h
  have htext : readDate (isoDate date) = ⟨number ((isoDate date).take 4),
      number (((isoDate date).drop 5).take 2), number (((isoDate date).drop 8).take 2)⟩ := by
    have hdigit := isDigit_padded 4 date.year.toNat
    rw [isoDate_of_plain h]
    cases htext : padded 4 date.year.toNat with
    | nil =>
        rw [htext] at hyear
        cases hyear
    | cons c rest =>
        rw [htext] at hdigit
        have hc := hdigit c List.mem_cons_self
        unfold readDate
        split
        · rename_i heq
          rw [List.cons_append, List.cons.injEq] at heq
          rw [heq.1] at hc
          cases hc
        · rename_i heq
          rw [List.cons_append, List.cons.injEq] at heq
          rw [heq.1] at hc
          cases hc
        · rfl
  rw [htext, isoDate_of_plain h]
  generalize hm : padded 2 date.month.toNat = month at *
  generalize hd : padded 2 date.day.toNat = day at *
  generalize hy : padded 4 date.year.toNat = year at *
  have hfirst : (year ++ ('-' :: month ++ '-' :: day)).take 4 = year := by
    rw [List.take_append_of_le_length (by omega), List.take_of_length_le (by omega)]
  have hsecond : ((year ++ ('-' :: month ++ '-' :: day)).drop 5).take 2 = month := by
    have hsplit : year ++ ('-' :: month ++ '-' :: day) = (year ++ ['-']) ++ (month ++ '-' :: day) := by
      simp
    rw [hsplit, List.drop_left' (by simp [hyear]), List.take_append_of_le_length (by omega),
      List.take_of_length_le (by omega)]
  have hthird : ((year ++ ('-' :: month ++ '-' :: day)).drop 8).take 2 = day := by
    have hsplit : year ++ ('-' :: month ++ '-' :: day) = (year ++ ['-'] ++ month ++ ['-']) ++ day := by
      simp
    rw [hsplit, List.drop_left' (by simp [hyear, hmonth]), List.take_of_length_le (by omega)]
  rw [hfirst, hsecond, hthird, ← hm, ← hd, ← hy, number_padded, number_padded, number_padded]
  obtain ⟨hy0, -⟩ := h.year
  obtain ⟨hm0, -⟩ := h.month
  obtain ⟨hd0, -⟩ := h.day
  cases date
  simp only [CivilDate.mk.injEq] at *
  omega

end plain

section signed

variable {date : CivilDate}

/-- Only a year of four digits starts with one. -/
theorem isDigit_head_isoDate : (isoDate date).head?.any Char.isDigit = true ↔
    0 ≤ date.year ∧ date.year ≤ 9999 := by
  unfold isoDate isoYear
  constructor
  · intro hdigit
    by_contra hyear
    rw [if_neg hyear] at hdigit
    split at hdigit
    · cases hdigit
    · cases hdigit
  · intro hyear
    have hlength := le_length_padded 4 date.year.toNat
    have hdigit := isDigit_padded 4 date.year.toNat
    rw [if_pos hyear]
    cases htext : padded 4 date.year.toNat with
    | nil =>
        rw [htext] at hlength
        cases hlength
    | cons c rest =>
        rw [htext] at hdigit
        exact hdigit c List.mem_cons_self

/-- Of any other date the ten characters keep the month, and lose the day. -/
theorem readDate_of_signed (h : ¬ (0 ≤ date.year ∧ date.year ≤ 9999))
    (hyear : date.year.natAbs < 1000000) (hmonth : 1 ≤ date.month ∧ date.month ≤ 12) :
    readDate ((isoDate date).take 10) = { date with day := 1 } := by
  have hsix : (padded 6 date.year.natAbs).length = 6 := 
    length_padded ((Nat.length_toDigits_le_iff (by decide) (by decide)).mpr hyear)
  have htwo : (padded 2 date.month.toNat).length = 2 :=
    length_padded ((Nat.length_toDigits_le_iff (by decide) (by decide)).mpr (by omega))
  have htext : ∀ sign rest, (sign :: padded 6 date.year.natAbs ++
      ('-' :: padded 2 date.month.toNat ++ rest)).take 10 =
        sign :: (padded 6 date.year.natAbs ++ '-' :: padded 2 date.month.toNat) := by
    intro sign rest
    have hsplit : sign :: padded 6 date.year.natAbs ++ ('-' :: padded 2 date.month.toNat ++ rest) =
        (sign :: (padded 6 date.year.natAbs ++ '-' :: padded 2 date.month.toNat)) ++ rest := by
      simp
    rw [hsplit, List.take_append_of_le_length (by simp [hsix, htwo]),
      List.take_of_length_le (by simp [hsix, htwo])]
  have hfirst : ((padded 6 date.year.natAbs ++ '-' :: padded 2 date.month.toNat).take 6) =
      padded 6 date.year.natAbs := by
    rw [List.take_append_of_le_length (by omega), List.take_of_length_le (by omega)]
  have hsecond : ((padded 6 date.year.natAbs ++ '-' :: padded 2 date.month.toNat).drop 7).take 2 =
      padded 2 date.month.toNat := by
    have hsplit : padded 6 date.year.natAbs ++ '-' :: padded 2 date.month.toNat =
        (padded 6 date.year.natAbs ++ ['-']) ++ padded 2 date.month.toNat := by
      simp
    rw [hsplit, List.drop_left' (by simp [hsix]), List.take_of_length_le (by omega)]
  unfold isoDate isoYear
  rw [if_neg h, htext]
  by_cases hnegative : date.year < 0
  · rw [if_pos hnegative, readDate_minus, hfirst, hsecond, number_padded, number_padded]
    simp only [CivilDate.mk.injEq, and_true]
    omega
  · rw [if_neg hnegative, readDate_plus, hfirst, hsecond, number_padded, number_padded]
    simp only [CivilDate.mk.injEq, and_true]
    omega

end signed

end Calendar
