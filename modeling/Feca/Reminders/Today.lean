import Feca.Reminders.Delivery

/-! # Whether a reminder of today is about today

The date of an event is an instant. What a clock shows in the timezone of a
member is compared with the day on which the instant is in UTC, and the two are
the same day unless midnight lies between them.
-/

namespace Feca.Reminders

open Concurrency Concurrency.Prog Push Relational Social

variable {s t : PushDb} {social : SocialDb} {env : AutomationEnv} {n : Notification}

/-! ## What a run adds -/

/-- Every notification is an old one, or one of these. -/
def Adds (R : Notification → Prop) (s t : PushDb) : Prop :=
  ∀ n ∈ t.notifications.rows, n ∈ s.notifications.rows ∨ R n

theorem Adds.refl (R : Notification → Prop) (s : PushDb) : Adds R s s := fun _ hn => .inl hn

theorem Adds.trans {R : Notification → Prop} {u : PushDb} (hst : Adds R s t) (htu : Adds R t u) :
    Adds R s u := by
  intro n hn
  rcases htu n hn with hmiddle | hnew
  · exact hst n hmiddle
  · exact .inr hnew

theorem always_publish {R : Notification → Prop} {input : PublishNotificationInput}
    {env : PublishEnv}
    (h : ∀ index, ∀ id ∈ input.recipients, R (notificationOf input env index id)) :
    (Push.publish input env).Always fun s t _ => Adds R s t := by
  have htransaction : (publishTransaction input env).Always fun s t _ => Adds R s t := by
    refine always_publishTransaction (Adds.refl R) (fun index id hid => ?_) fun ds => ?_
    · refine always_stmt fun s => ?_
      split
      · rename_i t hinsert
        obtain ⟨-, -, hrows⟩ := PushDb.insertNotification_ok hinsert
        intro n hn
        dsimp only at hn
        rw [hrows, List.mem_append, List.mem_singleton] at hn
        rcases hn with hold | rfl
        · exact .inl hold
        · exact .inr (h index id hid)
      · exact Adds.refl R s
    · refine always_stmt fun s => ?_
      split
      · rename_i t hinsert
        obtain ⟨-, hnotifications, -⟩ := PushDb.insertDeliveries_ok hinsert
        intro n hn
        dsimp only at hn
        rw [hnotifications] at hn
        exact .inl hn
      · exact Adds.refl R s
  unfold Push.publish
  split
  · trivial
  · exact always_transaction htransaction (Adds.refl R) fun _ _ _ _ _ hst htu => hst.trans htu

theorem always_publishAll {R : Notification → Prop} {env : Nat → PublishEnv} {index : Nat}
    {inputs : List PublishNotificationInput}
    (h : ∀ input ∈ inputs, ∀ k index, ∀ id ∈ input.recipients,
      R (notificationOf input (env k) index id)) :
    (publishAll env index inputs).Always fun s t _ => Adds R s t := by
  induction inputs generalizing index with
  | nil => trivial
  | cons input inputs ih =>
      have hrest := fun input hinput => h input (List.mem_cons_of_mem _ hinput)
      unfold publishAll
      refine always_bind (always_publish (h input List.mem_cons_self index)) fun result => ?_
      exact always_bind (ih hrest) fun published => trivial

/-! ## Which day it is -/

/-- The instant falls on the day that a clock in the timezone shows now. -/
def OnToday (intl : Intl) (timezone : String) (now date : Date) : Prop :=
  ∃ here there, intl.offset timezone now = some here ∧ intl.offset timezone date = some there ∧
    utcDay (date + there) = utcDay (now + here)

/-- No midnight lies between the instant in UTC and in the timezone. -/
def KeepsDay (intl : Intl) (timezone : String) (date : Date) : Prop :=
  ∃ there, intl.offset timezone date = some there ∧
    0 ≤ date % DAY + there ∧ date % DAY + there < DAY

theorem same_day_iff {date there : Int} : utcDay (date + there) = utcDay date ↔
    0 ≤ date % DAY + there ∧ date % DAY + there < DAY := by
  have hsplit := Int.mul_ediv_add_emod date DAY
  unfold utcDay
  generalize date % DAY = time at *
  generalize hday : date / DAY = day at *
  rw [← hsplit]
  unfold DAY HOUR MINUTE at *
  omega

/-! ## Reminders of today -/

/-- The run publishes the notification to a member in the timezone, about the event. -/
structure Reminds (env : AutomationEnv) (social : SocialDb) (users : List UserTimezoneContext)
    (s : PushDb) (n : Notification) (event : GroupEvent) (timezone : String) : Prop where
  published : n ∈ ((runTodayReminders env social (localTimeOf env.intl env.now users)).run
    s).store.notifications.rows
  new : n ∉ s.notifications.rows
  event : event ∈ social.events.rows ∧ n.entityId = some event.id
  member : ∃ context, users.find? (·.id == n.userId) = some context ∧ context.timezone = timezone

/-- The user is shown the date of the event, in UTC. -/
def ShownDate (social : SocialDb) (localTime : Id → Option LocalDateTime) (n : Notification) :
    Prop :=
  ∃ event ∈ social.events.rows, n.entityId = some event.id ∧ ∃ shown,
    localTime n.userId = some shown ∧ shown.date = toDateOnlyString event.date

theorem runTodayReminders_adds (localTime : Id → Option LocalDateTime) : Adds
    (ShownDate social localTime) s ((runTodayReminders env social localTime).run s).store := by
  have hadds : (runTodayReminders env social localTime).Always fun s t _ =>
      Adds (ShownDate social localTime) s t := by
    refine always_publishAll fun input hinput k index id hid => ?_
    obtain ⟨row, hrow, userId, -, shown, hshown, hdue, rfl⟩ := mem_dueInputs_iff.mp hinput
    obtain ⟨event, hevent, heventRow, -⟩ := mem_events_iff.mp hrow
    have hrowOf := eventRow_spec hevent heventRow
    have huser : id = userId :=
      List.mem_singleton.mp (List.mem_filter.mp (mem_distinctIds.mp hid)).1
    simp only [EventReminder.isDue, Bool.and_eq_true, beq_iff_eq] at hdue
    refine ⟨event, hevent, congrArg some hrowOf.id, shown, ?_, ?_⟩
    · rw [← hshown, ← huser]
      rfl
    · rw [← hrowOf.date]
      exact hdue.1.2
  exact hadds.run (Adds.refl _) (fun _ _ _ _ _ hst htu => hst.trans htu) s

/-- The clock of the member shows the date of the event, in UTC. -/
theorem Reminds.shows {users : List UserTimezoneContext} {event : GroupEvent} {timezone : String}
    (h : Reminds env social users s n event timezone) :
    ∃ here, env.intl.offset timezone env.now = some here ∧
      (clockAt env.intl (env.now + here)).date = toDateOnlyString event.date := by
  obtain ⟨context, hfind, rfl⟩ := h.member
  rcases runTodayReminders_adds _ n h.published with hold | ⟨other, hother, hid, shown, hshown, hdate⟩
  · exact absurd hold h.new
  · have hsame : other.id = event.id := Option.some.inj (hid.symm.trans h.event.2)
    rw [social.event_unique hother h.event.1 hsame] at hdate
    unfold localTimeOf tryGetLocalDateTime at hshown
    rw [hfind, Option.bind_some] at hshown
    obtain ⟨here, hhere, rfl⟩ := Option.map_eq_some_iff.mp hshown
    exact ⟨here, hhere, hdate⟩

/-- A reminder of today is about today exactly when the timezone of the member
shows the event on the day that it is on in UTC. -/
theorem reminded_today_iff {users : List UserTimezoneContext} {event : GroupEvent}
    {timezone : String} (hnow : ClockReading env.now)
    (hnear : ∀ away, env.intl.offset timezone env.now = some away → Near away)
    (h : Reminds env social users s n event timezone) :
    OnToday env.intl timezone env.now event.date ↔ KeepsDay env.intl timezone event.date := by
  obtain ⟨here, hhere, hshows⟩ := h.shows
  have hshown := (hnow.shown (hnear here hhere)).fourDigits
  have hclock : (clockAt env.intl (env.now + here)).date = toDateOnlyString (env.now + here) :=
    formatDate_eq hshown
  have htoday : utcDay (env.now + here) = utcDay event.date := by
    rw [← toDateOnlyString_inj hshown, ← hclock, hshows]
  constructor
  · rintro ⟨here', there, hhere', hthere, hday⟩
    rw [hhere, Option.some.injEq] at hhere'
    rw [← hhere', htoday] at hday
    exact ⟨there, hthere, same_day_iff.mp hday⟩
  · rintro ⟨there, hthere, hkept⟩
    exact ⟨here, there, hhere, hthere, by rw [htoday]; exact same_day_iff.mpr hkept⟩

/-! ## Ana's plan again -/

/-- Twenty past nine in Rosario on the eighteenth of July. -/
def theNextMorning : AutomationEnv := aRun (20652 * DAY + 12 * HOUR + 20 * MINUTE) ('a', 'b')

/-- Ten in the evening in Rosario on the seventeenth, when it is the eighteenth in UTC. -/
def lateEvening : Date := 20652 * DAY + 1 * HOUR

/-- Five in the afternoon in Rosario on the eighteenth. -/
def thatAfternoon : Date := 20652 * DAY + 20 * HOUR

/-- Whether Ana has a reminder of her plan after the run. -/
def remindsAna (date : Date) : Bool :=
  ((runTodayReminders theNextMorning (anasPlan date) (localTimeOf theNextMorning.intl
    theNextMorning.now (listUsersWithLatestTimezone anasPhone))).run
      anasPhone).store.notifications.rows.any fun n =>
        n.userId == "ana" && n.entityId == some (anasEvent date).id

theorem reminds_of_remindsAna (date : Date) (h : remindsAna date = true)
    (hevent : anasEvent date ∈ (anasPlan date).events.rows) : ∃ n, Reminds theNextMorning
      (anasPlan date) (listUsersWithLatestTimezone anasPhone) anasPhone n (anasEvent date)
        "America/Argentina/Cordoba" := by
  obtain ⟨n, hn, hcols⟩ := List.any_eq_true.mp h
  rw [Bool.and_eq_true, beq_iff_eq, beq_iff_eq] at hcols
  refine ⟨n, hn, fun hold => ?_, ⟨hevent, hcols.2⟩, ⟨"ana", "America/Argentina/Cordoba"⟩, ?_, rfl⟩
  · cases hold
  · rw [hcols.1]
    rfl

/-- In the morning Ana is told that she has a plan today: it was yesterday. -/
theorem yesterdays_plan_is_today : ¬ ∀ n event timezone,
    Reminds theNextMorning (anasPlan lateEvening) (listUsersWithLatestTimezone anasPhone)
      anasPhone n event timezone →
      OnToday theNextMorning.intl timezone theNextMorning.now event.date := by
  intro h
  obtain ⟨n, hreminds⟩ := reminds_of_remindsAna lateEvening (by decide)
    (by decide)
  obtain ⟨here, there, hhere, hthere, hday⟩ := h n _ _ hreminds
  cases hhere
  cases hthere
  revert hday
  decide

theorem afternoon_plan_is_today : ∃ n, Reminds theNextMorning (anasPlan thatAfternoon)
    (listUsersWithLatestTimezone anasPhone) anasPhone n (anasEvent thatAfternoon)
      "America/Argentina/Cordoba" ∧
    OnToday theNextMorning.intl "America/Argentina/Cordoba" theNextMorning.now
      (anasEvent thatAfternoon).date := by
  obtain ⟨n, hreminds⟩ := reminds_of_remindsAna thatAfternoon (by decide)
    (by decide)
  have hnow : ClockReading theNextMorning.now := by
    unfold ClockReading
    decide
  refine ⟨n, hreminds, (reminded_today_iff hnow (fun away haway => ?_) hreminds).mpr ?_⟩
  · cases haway
    unfold Near DAY HOUR MINUTE
    omega
  · exact ⟨-3 * HOUR, rfl, by decide, by decide⟩

end Feca.Reminders
