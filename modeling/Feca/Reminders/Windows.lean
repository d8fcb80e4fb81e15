import Feca.Reminders.Publishing

/-! # Due, and looked for

A reminder is due in one hour of one local day. A schedule that leaves no gap of
more than an hour comes into that hour, and the days that a run reads events of
are enough for every timezone.
-/

namespace Feca.Reminders

open Calendar Concurrency Concurrency.Prog Push Relational Social

/-- What a clock of this age shows: from 1970 on, and before 9999. -/
def ClockReading (value : Int) : Prop := 0 ≤ value ∧ value < 2932532 * DAY

/-- A timezone is less than a day away. -/
def Near (offset : Int) : Prop := -DAY < offset ∧ offset < DAY

/-- What is shown then, somewhere. -/
def Shown (value : Int) : Prop := -1 ≤ utcDay value ∧ utcDay value ≤ 2932532

theorem ClockReading.shown {now offset : Int} (h : ClockReading now) (hnear : Near offset) :
    Shown (now + offset) := by
  unfold ClockReading Shown Near utcDay DAY HOUR MINUTE at *
  omega

theorem Shown.fourDigits {value : Date} (h : Shown value) : FourDigits value :=
  ⟨h.1, by have hlate := h.2; omega⟩

namespace EventReminder

/-- The reminder is due so many days before the day of the event. -/
structure Lawful (reminder : EventReminder) (before : Int) : Prop where
  date : ∀ (event : EventRow) value, TimeValue event.date → Shown value →
    (toDateOnlyString value = reminder.reminderDate event ↔
      utcDay value = utcDay event.date - before)
  window : reminder.windowEnd = 2 + before
  before : 0 ≤ before ∧ before ≤ 1
  hour : 1 ≤ reminder.hour ∧ reminder.hour ≤ 22

end EventReminder

/-- The day before is not missed, though the text of an event in the year 10000
has no day in it. -/
theorem shows_dayBefore_iff {date value : Date} (htime : TimeValue date) (hvalue : Shown value) :
    toDateOnlyString value = shiftDateOnly (toDateOnlyString date) (-1) ↔
      utcDay value = utcDay date - 1 := by
  by_cases hyear : 0 ≤ (civil (utcDay date)).year ∧ (civil (utcDay date)).year ≤ 9999
  · have hday : utcDay (addDays date (-1)) = utcDay date - 1 := by
      unfold utcDay addDays DAY HOUR MINUTE
      omega
    rw [shiftDateOnly_of_plain (plain_civil hyear), toDateOnlyString_inj hvalue.fourDigits, hday]
  · obtain ⟨first, hshift, hlow, hhigh⟩ := shiftDateOnly_of_not_plain htime hyear (-1)
    have hfar := far_of_not_plain hyear
    obtain ⟨hstart, hstop⟩ := hvalue
    rw [hshift, toDateOnlyString_inj ⟨hstart, by omega⟩]
    omega

theorem lawful_rsvpReminder : rsvpReminder.Lawful 1 where
  date event value := shows_dayBefore_iff
  window := rfl
  before := by omega
  hour := by decide

theorem lawful_todayReminder : todayReminder.Lawful 0 where
  date event value htime hvalue := by
    show toDateOnlyString value = toDateOnlyString event.date ↔ _
    rw [toDateOnlyString_inj hvalue.fourDigits, Int.sub_zero]
  window := rfl
  before := by omega
  hour := by decide

/-- When the due hour starts in a timezone. -/
def dueAt (before : Int) (hour : Nat) (date : Date) (offset : Int) : Int :=
  (utcDay date - before) * DAY + hour * HOUR - offset

section due

variable {reminder : EventReminder} {before : Int} {event : EventRow} {now offset : Int}
  {intl : Intl}

/-- The day is compared as text. -/
theorem shows_reminderDate_iff (h : reminder.Lawful before) (hevent : TimeValue event.date)
    (hnow : ClockReading now) (hnear : Near offset) :
    (clockAt intl (now + offset)).date = reminder.reminderDate event ↔
      utcDay (now + offset) = utcDay event.date - before := by
  have hshown := hnow.shown hnear
  have hclock : (clockAt intl (now + offset)).date = toDateOnlyString (now + offset) :=
    formatDate_eq hshown.fourDigits
  rw [hclock, h.date event _ hevent hshown]

/-- Due from the start of the hour on, for an hour. -/
theorem isDue_iff (h : reminder.Lawful before) (hevent : TimeValue event.date)
    (hnow : ClockReading now) (hnear : Near offset) {userId : Id} :
    reminder.isDue event userId (clockAt intl (now + offset)) = true ↔
      reminder.skips event userId = false ∧
        dueAt before reminder.hour event.date offset ≤ now ∧
        now < dueAt before reminder.hour event.date offset + HOUR := by
  have hsplit := Int.mul_ediv_add_emod (now + offset) DAY
  have hrest : 0 ≤ (now + offset) % DAY ∧ (now + offset) % DAY < DAY := by
    unfold DAY HOUR MINUTE
    omega
  have hhour := h.hour
  unfold EventReminder.isDue
  rw [Bool.and_eq_true, Bool.and_eq_true, beq_iff_eq, shows_reminderDate_iff h hevent hnow hnear,
    isDueAtLocalTime_iff intl _ h.hour.1 h.hour.2, Bool.not_eq_true', and_assoc]
  refine and_congr Iff.rfl ?_
  unfold dueAt
  unfold utcDay at *
  generalize (now + offset) % DAY = rest at *
  generalize (now + offset) / DAY = shownDay at *
  generalize event.date / DAY = eventDay at *
  unfold DAY HOUR MINUTE at *
  omega

theorem within_days {date : Int} (hbefore : 0 ≤ before ∧ before ≤ 1) (hnear : Near offset)
    (hdate : utcDay (now + offset) = utcDay date - before) :
    (utcDay now - 1) * DAY ≤ date ∧ date < (utcDay now + (2 + before)) * DAY := by
  have hnext : utcDay now - 1 ≤ utcDay (now + offset) ∧ utcDay (now + offset) ≤ utcDay now + 1 := by
    unfold Near utcDay DAY HOUR MINUTE at *
    omega
  have hday : utcDay date * DAY ≤ date ∧ date < (utcDay date + 1) * DAY := by
    unfold utcDay DAY HOUR MINUTE
    omega
  rw [hdate] at hnext
  unfold DAY HOUR MINUTE at *
  omega

/-- No event is left out that is due in some timezone. -/
theorem within_window (h : reminder.Lawful before) (hevent : TimeValue event.date)
    (hnow : ClockReading now) (hnear : Near offset)
    (hdate : (clockAt intl (now + offset)).date = reminder.reminderDate event) :
    EventReminder.windowStart now ≤ event.date ∧ event.date < reminder.windowStop now := by
  rw [shows_reminderDate_iff h hevent hnow hnear] at hdate
  obtain ⟨hb0, hb1⟩ := h.before
  have hyesterday : utcDay (addDays now (-1)) = utcDay now - 1 := by
    unfold utcDay addDays DAY HOUR MINUTE
    omega
  have hlater : utcDay (addDays now reminder.windowEnd) = utcDay now + (2 + before) := by
    rw [h.window]
    unfold utcDay addDays DAY HOUR MINUTE
    omega
  have hpast : 0 ≤ utcDay now := by
    unfold ClockReading utcDay DAY HOUR MINUTE at *
    omega
  unfold EventReminder.windowStart EventReminder.windowStop
  rw [startOfUtcDay_eq (by omega), startOfUtcDay_eq (by omega), hyesterday, hlater]
  exact within_days h.before hnear hdate

end due

/-! ## A schedule without gaps -/

/-- Runs at most so far apart, from before the end of an hour until after its
start, come into it. -/
theorem exists_in_hour {times : List Int} {gap start : Int}
    (hgaps : times.IsChain fun a b => a ≤ b ∧ b ≤ a + gap)
    (hearly : ∃ a ∈ times, a < start + gap) (hlate : ∃ b ∈ times, start ≤ b) :
    ∃ time ∈ times, start ≤ time ∧ time < start + gap := by
  induction times with
  | nil =>
      obtain ⟨a, ha, -⟩ := hearly
      cases ha
  | cons first rest ih =>
      obtain ⟨b, hb, hstart⟩ := hlate
      by_cases hfirst : start ≤ first
      · obtain ⟨a, ha, hbefore⟩ := hearly
        have hsorted : (first :: rest).Pairwise (· ≤ ·) :=
          List.isChain_iff_pairwise.mp (hgaps.imp fun _ _ h => h.1)
        have hle : first ≤ a := by
          rw [List.mem_cons] at ha
          rcases ha with rfl | ha
          · exact le_refl a
          · exact (List.pairwise_cons.mp hsorted).1 a ha
        exact ⟨first, List.mem_cons_self, hfirst, by omega⟩
      · have hlater : b ∈ rest := by
          rw [List.mem_cons] at hb
          rcases hb with rfl | hb
          · exact absurd hstart hfirst
          · exact hb
        cases rest with
        | nil => cases hlater
        | cons second rest =>
            obtain ⟨hstep, hrest⟩ := List.isChain_cons_cons.mp hgaps
            obtain ⟨time, htime, hin⟩ := ih hrest ⟨second, List.mem_cons_self, by omega⟩
              ⟨b, hlater, hstart⟩
            exact ⟨time, List.mem_cons_of_mem _ htime, hin⟩

end Feca.Reminders
