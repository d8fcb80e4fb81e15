import Feca.Reminders.FirstDue

/-! # The hours of a recommendation

Every slot is due for an hour, on its weekdays; where two hours overlap, the one
that starts later wins. Whatever runs there are, a user is sent no more
recommendations on a day than there are slots for its weekday.
-/

namespace Feca.Reminders

open Calendar Concurrency Content Places Push Relational Social

variable {s t : PushDb} {userId : Id}

/-! ## The slot that is picked -/

section pick

variable {localTime : LocalDateTime} {configured : List String} {slot : ContextualSlot}

/-- The due schedule that starts last. -/
structure Picked (localTime : LocalDateTime) (configured : List String)
    (schedule : ContextualSchedule) : Prop where
  listed : schedule ∈ CONTEXTUAL_SCHEDULES
  due : schedule.isDue localTime configured = true
  last : ∀ other ∈ CONTEXTUAL_SCHEDULES, other.isDue localTime configured = true →
    other.start ≤ schedule.start

theorem picked_of_pickDue (h : pickDueContextualSlot localTime configured = some slot) :
    ∃ schedule, Picked localTime configured schedule ∧ schedule.slot = slot := by
  obtain ⟨schedule, hhead, hslot⟩ := Option.map_eq_some_iff.mp h
  have hsorted : ((CONTEXTUAL_SCHEDULES.filter
      (·.isDue localTime configured)).insertionSort startsLater).Pairwise startsLater :=
    Collections.pairwise_insertionSort_of (r := startsLater) (s := startsLater)
      (fun _ _ hab => hab) (fun _ _ hab => Nat.le_of_not_le hab)
      (fun _ _ _ hab hbc => Nat.le_trans hbc hab) _
  have hmem := List.mem_filter.mp ((List.mem_insertionSort _).mp (List.mem_of_head? hhead))
  refine ⟨schedule, ⟨hmem.1, hmem.2, fun other hother hdue => ?_⟩, hslot⟩
  have hin : other ∈ (CONTEXTUAL_SCHEDULES.filter
      (·.isDue localTime configured)).insertionSort startsLater :=
    (List.mem_insertionSort _).mpr (List.mem_filter.mpr ⟨hother, hdue⟩)
  obtain ⟨rest, hrest⟩ := List.head?_eq_some_iff.mp hhead
  rw [hrest] at hsorted hin
  rw [List.mem_cons] at hin
  rcases hin with rfl | hin
  · exact Nat.le_refl _
  · exact (List.pairwise_cons.mp hsorted).1 other hin

end pick

/-! ## The hour -/

/-- Sixty minutes from the start on, where they end before midnight. -/
theorem isDueAtLocalTime_minutes_iff (intl : Intl) (shown : Int) {hour minute : Nat}
    (h60 : 60 ≤ hour * 60 + minute) (hlast : hour * 60 + minute + 60 ≤ 24 * 60) :
    isDueAtLocalTime (clockAt intl shown) hour minute = true ↔
      ((hour * 60 + minute : Nat) : Int) * MINUTE ≤ shown % DAY ∧
        shown % DAY < ((hour * 60 + minute + 60 : Nat) : Int) * MINUTE := by
  have hminute : shown % HOUR = shown % DAY % HOUR := by
    unfold DAY HOUR MINUTE
    omega
  unfold isDueAtLocalTime clockAt formatHour
  rw [hminute]
  dsimp only
  rw [Bool.and_eq_true, decide_eq_true_eq, decide_eq_true_eq]
  have h0 : 0 ≤ shown % DAY := by
    unfold DAY HOUR MINUTE
    omega
  have hstop : shown % DAY < DAY := by
    unfold DAY HOUR MINUTE
    omega
  generalize shown % DAY = time at *
  generalize hour * 60 + minute = target at *
  unfold DAY HOUR MINUTE at *
  split
  · rename_i hmidnight
    omega
  · omega

/-- The instant is within the hour of the day that starts so many minutes after midnight. -/
def Within (day : Int) (start : Nat) (shown : Int) : Prop :=
  day * DAY + start * MINUTE ≤ shown ∧ shown < day * DAY + (start + 60) * MINUTE

theorem due_iff_within {intl : Intl} {shown : Int} {hour minute : Nat}
    (h60 : 60 ≤ hour * 60 + minute) (hlast : hour * 60 + minute + 60 ≤ 24 * 60) :
    isDueAtLocalTime (clockAt intl shown) hour minute = true ↔
      Within (utcDay shown) (hour * 60 + minute) shown := by
  rw [isDueAtLocalTime_minutes_iff intl shown h60 hlast]
  have hsplit := Int.mul_ediv_add_emod shown DAY
  unfold Within utcDay
  generalize shown % DAY = rest at *
  generalize shown / DAY = day at *
  generalize hour * 60 + minute = start at *
  unfold DAY HOUR MINUTE at *
  omega

/-- What the day is called in a key. -/
def dayText (day : Int) : String := toDateOnlyString (day * DAY)

theorem dayText_eq_iff {shown day : Int} {intl : Intl} (h : Shown shown) :
    (clockAt intl shown).date = dayText day ↔ utcDay shown = day := by
  have hclock : (clockAt intl shown).date = toDateOnlyString shown := formatDate_eq h.fourDigits
  have hday : utcDay (day * DAY) = day := by
    unfold utcDay DAY HOUR MINUTE
    omega
  unfold dayText
  rw [hclock, toDateOnlyString_inj h.fourDigits, hday]

theorem weekday_clockAt (intl : Intl) (shown : Int) :
    (clockAt intl shown).weekday = (utcDay shown + 4) % 7 := rfl

/-! ## Keys -/

theorem name_injective {slot other : ContextualSlot} (h : slot.name = other.name) :
    slot = other := by
  cases slot <;> cases other <;> first | rfl | exact absurd h (by decide)

theorem name_no_colon (slot : ContextualSlot) : ':' ∉ slot.name.toList := by
  cases slot <;> decide

/-- What stands before the first colon. -/
theorem append_colon_inj {front front' rest rest' : List Char} (h : ':' ∉ front)
    (h' : ':' ∉ front') (heq : front ++ ':' :: rest = front' ++ ':' :: rest') :
    front = front' ∧ rest = rest' := by
  induction front generalizing front' with
  | nil =>
      cases front' with
      | nil => exact ⟨rfl, (List.cons.inj heq).2⟩
      | cons c cs => exact absurd (List.mem_cons.mpr (.inl (List.cons.inj heq).1)) h'
  | cons c cs ih =>
      cases front' with
      | nil => exact absurd (List.mem_cons.mpr (.inl (List.cons.inj heq).1.symm)) h
      | cons d ds =>
          obtain ⟨hhead, htail⟩ := List.cons.inj heq
          obtain ⟨hfront, hrest⟩ := ih (fun hmem => h (List.mem_cons_of_mem _ hmem))
            (fun hmem => h' (List.mem_cons_of_mem _ hmem)) htail
          exact ⟨by rw [hhead, hfront], hrest⟩

theorem contextualKey_inj {slot other : ContextualSlot} {date otherDate : String}
    (h : contextualKey slot userId date = contextualKey other userId otherDate) :
    slot = other ∧ date = otherDate := by
  have hlist := congrArg String.toList h
  rw [toList_contextualKey, toList_contextualKey] at hlist
  have hrest := (List.cons.inj (List.append_cancel_left hlist)).2
  obtain ⟨hname, hrest⟩ := append_colon_inj (name_no_colon slot) (name_no_colon other) hrest
  exact ⟨name_injective (String.toList_inj.mp hname),
    String.toList_inj.mp (List.cons.inj (List.append_cancel_left hrest)).2⟩

theorem digestKey_inj {date otherDate : String}
    (h : digestKey userId date = digestKey userId otherDate) : date = otherDate := by
  have hlist := congrArg String.toList h
  rw [toList_digestKey, toList_digestKey] at hlist
  have hrest := (List.cons.inj (List.append_cancel_left hlist)).2
  exact String.toList_inj.mp (List.cons.inj (List.append_cancel_left hrest)).2

theorem digestKey_ne_contextualKey (slot : ContextualSlot) (date otherDate : String) :
    digestKey userId date ≠ contextualKey slot userId otherDate := by
  intro h
  have hhead := congrArg (fun key : String => key.toList.head?) h
  simp [toList_digestKey, toList_contextualKey] at hhead

/-! ## What a run has -/

namespace AutomationRun

variable (run : AutomationRun)

/-- The user is listed, and shown this time. -/
def Shows (userId : Id) (localTime : LocalDateTime) : Prop :=
  localTimeAt run.env run.store userId = some localTime

/-- The slots that the user likes to go out in. -/
def slotsOf (userId : Id) : List String :=
  (readOutingPreferences (run.world.outingPreferences userId)).typicalOutingSlots

variable {run}

theorem input_of_sends {key : String} {sent : Sent} (h : run.sends userId key = some sent) :
    ∃ input, (input ∈ digestInputs run.env run.world (listUserContexts run.store)
        (localTimeAt run.env run.store) ∨
      input ∈ recommendationInputs run.env run.world (listUserContexts run.store)
        (localTimeAt run.env run.store)) ∧
      isFor userId key input = true ∧ sentOf input = sent := by
  unfold sends Reminders.sends at h
  split at h
  · obtain ⟨input, hfind, hsent⟩ := Option.map_eq_some_iff.mp h
    exact ⟨input, List.mem_append.mp (List.mem_of_find?_eq_some hfind), List.find?_some hfind,
      hsent⟩
  · cases h

theorem due_of_sends {slot : ContextualSlot} {date : String} {sent : Sent}
    (h : run.sends userId (contextualKey slot userId date) = some sent) :
    ∃ localTime, run.Shows userId localTime ∧ localTime.date = date ∧
      pickDueContextualSlot localTime (run.slotsOf userId) = some slot := by
  obtain ⟨input, hinput, hfor, -⟩ := input_of_sends h
  unfold isFor at hfor
  rw [Bool.and_eq_true, beq_iff_eq, beq_iff_eq] at hfor
  obtain ⟨hrecipients, hkey⟩ := hfor
  rcases hinput with hdigest | hrecommendation
  · obtain ⟨user, -, hturn⟩ := List.mem_filterMap.mp hdigest
    obtain ⟨localTime, -, hturn⟩ := Option.bind_eq_some_iff.mp hturn
    obtain ⟨-, -, digest, rfl⟩ := digestOf_spec hturn
    have huser : user.id = userId := (List.cons.inj hrecipients).1
    rw [← huser] at hkey
    exact absurd (Option.some.inj hkey) (digestKey_ne_contextualKey slot _ _)
  · obtain ⟨user, -, hturn⟩ := List.mem_filterMap.mp hrecommendation
    obtain ⟨localTime, hlocal, hturn⟩ := Option.bind_eq_some_iff.mp hturn
    obtain ⟨other, intent, place, hpick, rfl⟩ := recommendationOf_spec hturn
    have huser : user.id = userId := (List.cons.inj hrecipients).1
    rw [← huser] at hkey ⊢
    obtain ⟨rfl, rfl⟩ := contextualKey_inj (Option.some.inj hkey)
    exact ⟨localTime, hlocal, rfl, hpick⟩

theorem sunday_of_sends {date : String} {sent : Sent}
    (h : run.sends userId (digestKey userId date) = some sent) :
    ∃ localTime, run.Shows userId localTime ∧ localTime.date = date ∧ localTime.weekday = 0 ∧
      isDueAtLocalTime localTime 18 0 = true := by
  obtain ⟨input, hinput, hfor, -⟩ := input_of_sends h
  unfold isFor at hfor
  rw [Bool.and_eq_true, beq_iff_eq, beq_iff_eq] at hfor
  obtain ⟨hrecipients, hkey⟩ := hfor
  rcases hinput with hdigest | hrecommendation
  · obtain ⟨user, -, hturn⟩ := List.mem_filterMap.mp hdigest
    obtain ⟨localTime, hlocal, hturn⟩ := Option.bind_eq_some_iff.mp hturn
    obtain ⟨hweekday, hdue, digest, rfl⟩ := digestOf_spec hturn
    have huser : user.id = userId := (List.cons.inj hrecipients).1
    rw [← huser] at hkey ⊢
    exact ⟨localTime, hlocal, digestKey_inj (Option.some.inj hkey), hweekday, hdue⟩
  · obtain ⟨user, -, hturn⟩ := List.mem_filterMap.mp hrecommendation
    obtain ⟨localTime, -, hturn⟩ := Option.bind_eq_some_iff.mp hturn
    obtain ⟨slot, intent, place, -, rfl⟩ := recommendationOf_spec hturn
    have huser : user.id = userId := (List.cons.inj hrecipients).1
    rw [← huser] at hkey
    exact absurd (Option.some.inj hkey).symm (digestKey_ne_contextualKey slot _ _)

end AutomationRun

/-! ## All runs -/

/-- Every clock is one that shows four digits of a year, less than a day away. -/
structure ReadsClocks (runs : List AutomationRun) : Prop where
  now : ∀ run ∈ runs, ClockReading run.env.now
  near : ∀ run ∈ runs, ∀ timezone away,
    run.env.intl.offset timezone run.env.now = some away → Near away

/-- At the time of the run it is this instant where the user is. -/
def AutomationRun.Finds (run : AutomationRun) (userId : Id) (shown : Int) : Prop :=
  ∃ user ∈ listUserContexts run.store, user.id = userId ∧ ∃ away,
    run.env.intl.offset user.timezone run.env.now = some away ∧ shown = run.env.now + away

theorem AutomationRun.Shows.finds {run : AutomationRun} {localTime : LocalDateTime}
    (h : run.Shows userId localTime) :
    ∃ shown, run.Finds userId shown ∧ localTime = clockAt run.env.intl shown := by
  obtain ⟨context, hfind, hshown⟩ := Option.bind_eq_some_iff.mp h
  obtain ⟨user, huser, rfl⟩ := List.mem_map.mp (List.mem_of_find?_eq_some hfind)
  obtain ⟨away, haway, rfl⟩ := Option.map_eq_some_iff.mp hshown
  exact ⟨_, ⟨user, huser, by simpa using List.find?_some hfind, away, haway, rfl⟩, rfl⟩

theorem ReadsClocks.shown {runs : List AutomationRun} (h : ReadsClocks runs) {run : AutomationRun}
    (hrun : run ∈ runs) {shown : Int} (hfinds : run.Finds userId shown) : Shown shown := by
  obtain ⟨user, -, -, away, haway, rfl⟩ := hfinds
  exact (h.now run hrun).shown (h.near run hrun _ _ haway)

/-- What a run recommends in the hour of a schedule, where the user is. -/
structure InItsHour (run : AutomationRun) (userId : Id) (day shown : Int)
    (schedule : ContextualSchedule) : Prop where
  finds : run.Finds userId shown
  within : Within day schedule.start shown
  chosen : schedule.slot.name ∈ run.slotsOf userId
  /-- No other schedule of the day that the user has chosen and that is due starts later. -/
  last : ∀ other ∈ CONTEXTUAL_SCHEDULES, other.slot.name ∈ run.slotsOf userId →
    (day + 4) % 7 ∈ other.weekdays → Within day other.start shown → other.start ≤ schedule.start

theorem start_bounds : ∀ schedule ∈ CONTEXTUAL_SCHEDULES,
    60 ≤ schedule.hour * 60 + schedule.minute ∧
      schedule.hour * 60 + schedule.minute + 60 ≤ 24 * 60 := by decide

theorem schedule_of_slot : ∀ schedule ∈ CONTEXTUAL_SCHEDULES, ∀ other ∈ CONTEXTUAL_SCHEDULES,
    schedule.slot = other.slot → schedule = other := by decide

theorem isDue_iff_inHour {schedule : ContextualSchedule} (hlisted : schedule ∈ CONTEXTUAL_SCHEDULES)
    {intl : Intl} {shown : Int} {configured : List String} :
    schedule.isDue (clockAt intl shown) configured = true ↔
      schedule.slot.name ∈ configured ∧ (utcDay shown + 4) % 7 ∈ schedule.weekdays ∧
        Within (utcDay shown) schedule.start shown := by
  obtain ⟨h60, hlast⟩ := start_bounds schedule hlisted
  unfold ContextualSchedule.isDue
  rw [Bool.and_eq_true, Bool.and_eq_true, List.contains_iff_mem, List.contains_iff_mem,
    due_iff_within h60 hlast, weekday_clockAt, and_assoc]
  rfl

/-- The schedules of a weekday. -/
def schedulesOn (weekday : Int) : List ContextualSchedule :=
  CONTEXTUAL_SCHEDULES.filter (·.weekdays.contains weekday)

section runs

variable {runs : List AutomationRun} {day : Int}

theorem sender_of_sent {key : String} (h : Automates s runs t) (hkey : PersonalKey userId key)
    (hnone : sentUnder s userId key = none) (hsent : (sentUnder t userId key).isSome) :
    ∃ run ∈ runs, ∃ sent, run.sends userId key = some sent := by
  rw [sentUnder_automates h hkey, hnone, Option.none_or] at hsent
  obtain ⟨sent, hfirst⟩ := Option.isSome_iff_exists.mp hsent
  obtain ⟨run, hrun, hsends⟩ := List.exists_of_findSome?_eq_some hfirst
  exact ⟨run, hrun, sent, hsends⟩

theorem recommended_inItsHour (h : Automates s runs t) (hclocks : ReadsClocks runs)
    {slot : ContextualSlot}
    (hnone : sentUnder s userId (contextualKey slot userId (dayText day)) = none)
    (hsent : (sentUnder t userId (contextualKey slot userId (dayText day))).isSome) :
    ∃ schedule ∈ schedulesOn ((day + 4) % 7), schedule.slot = slot ∧
      ∃ run ∈ runs, ∃ shown, InItsHour run userId day shown schedule := by
  obtain ⟨run, hrun, sent, hsends⟩ :=
    sender_of_sent h ⟨_, .inr ⟨slot, rfl⟩⟩ hnone hsent
  obtain ⟨localTime, hshows, hdate, hpick⟩ := AutomationRun.due_of_sends hsends
  obtain ⟨shown, hfinds, rfl⟩ := hshows.finds
  obtain ⟨schedule, hpicked, hslot⟩ := picked_of_pickDue hpick
  rw [dayText_eq_iff (hclocks.shown hrun hfinds)] at hdate
  obtain ⟨hchosen, hweekday, hwithin⟩ := (isDue_iff_inHour hpicked.listed).mp hpicked.due
  rw [hdate] at hweekday hwithin
  refine ⟨schedule, List.mem_filter.mpr ⟨hpicked.listed, by simpa using hweekday⟩, hslot, run,
    hrun, shown, hfinds, hwithin, hchosen, ?_⟩
  intro other hother hotherChosen hotherWeekday hotherWithin
  refine hpicked.last other hother ((isDue_iff_inHour hother).mpr ⟨hotherChosen, ?_⟩)
  rw [hdate]
  exact ⟨hotherWeekday, hotherWithin⟩

/-- Whatever runs there are, a user who has had nothing for a day gets the
recommendations of a day in their hours of that day where the user is, of the
schedules that overlap the one that starts last, no more than the weekday has
schedules; and the digest on a Sunday from six to seven in the evening. -/
theorem personal_notifications_keep_their_hours (h : Automates s runs t)
    (hclocks : ReadsClocks runs)
    (hnone : ∀ key, PersonalKey userId key → sentUnder s userId key = none) :
    (∀ slot, (sentUnder t userId (contextualKey slot userId (dayText day))).isSome →
      ∃ schedule ∈ schedulesOn ((day + 4) % 7), schedule.slot = slot ∧
        ∃ run ∈ runs, ∃ shown, InItsHour run userId day shown schedule) ∧
    ((CONTEXTUAL_SCHEDULES.filter fun schedule => (sentUnder t userId
        (contextualKey schedule.slot userId (dayText day))).isSome).length ≤
      (schedulesOn ((day + 4) % 7)).length) ∧
    ((sentUnder t userId (digestKey userId (dayText day))).isSome → (day + 4) % 7 = 0 ∧
      ∃ run ∈ runs, ∃ shown, run.Finds userId shown ∧ Within day (18 * 60) shown) := by
  have hhours : ∀ slot, (sentUnder t userId (contextualKey slot userId (dayText day))).isSome →
      ∃ schedule ∈ schedulesOn ((day + 4) % 7), schedule.slot = slot ∧
        ∃ run ∈ runs, ∃ shown, InItsHour run userId day shown schedule := fun slot =>
    recommended_inItsHour h hclocks (hnone _ ⟨_, .inr ⟨slot, rfl⟩⟩)
  refine ⟨hhours, ?_, fun hsent => ?_⟩
  · unfold schedulesOn
    rw [← List.countP_eq_length_filter, ← List.countP_eq_length_filter]
    refine List.countP_mono_left fun schedule hlisted hsent => ?_
    obtain ⟨other, hother, hslot, -⟩ := hhours schedule.slot hsent
    obtain ⟨hotherListed, hweekday⟩ := List.mem_filter.mp hother
    rw [schedule_of_slot schedule hlisted other hotherListed hslot.symm]
    exact hweekday
  · obtain ⟨run, hrun, sent, hsends⟩ :=
      sender_of_sent h ⟨_, .inl rfl⟩ (hnone _ ⟨_, .inl rfl⟩) hsent
    obtain ⟨localTime, hshows, hdate, hweekday, hdue⟩ := AutomationRun.sunday_of_sends hsends
    obtain ⟨shown, hfinds, rfl⟩ := hshows.finds
    rw [dayText_eq_iff (hclocks.shown hrun hfinds)] at hdate
    rw [weekday_clockAt, hdate] at hweekday
    rw [due_iff_within (by decide) (by decide), hdate] at hdue
    exact ⟨hweekday, run, hrun, shown, hfinds, hdue⟩

end runs

theorem readsClocks_anasFriday : ReadsClocks [beforeFive, afterFive] where
  now := by
    intro run hrun
    rw [List.mem_cons, List.mem_singleton] at hrun
    rcases hrun with rfl | rfl
    · unfold ClockReading
      decide
    · unfold ClockReading
      decide
  near := by
    intro run hrun timezone away haway
    rw [List.mem_cons, List.mem_singleton] at hrun
    have hrosario : away = -3 * HOUR := by
      rcases hrun with rfl | rfl
      · exact (Option.some.inj haway).symm
      · exact (Option.some.inj haway).symm
    rw [hrosario]
    unfold Near DAY HOUR MINUTE
    omega

/-- On her Friday Ana gets four recommendations at most, and no digest. -/
theorem anas_friday_keeps_its_hours :
    ((CONTEXTUAL_SCHEDULES.filter fun schedule => (sentUnder afterFive.after "ana"
      (contextualKey schedule.slot "ana" (dayText 20651))).isSome).length ≤ 4) ∧
    sentUnder afterFive.after "ana" (digestKey "ana" (dayText 20651)) = none := by
  have hkept := @personal_notifications_keep_their_hours _ _ "ana" _ 20651 automates_anasFriday
    readsClocks_anasFriday fun _ _ => rfl
  refine ⟨hkept.2.1, ?_⟩
  rw [← Option.not_isSome_iff_eq_none]
  intro hsent
  exact absurd (hkept.2.2 hsent).1 (by decide)

end Feca.Reminders
