import Feca.Reminders.Windows
import Feca.Social.System

/-! # Every member is reminded once

Runs of the automations follow one another, and others may write in between, as
long as they send no reminders and take none away. Where the runs come into the
due hour of a member, the member has the reminder in the end, and has it once.
-/

namespace Feca.Reminders

open Calendar Concurrency Concurrency.Prog Push Relational Social

variable {s t u : PushDb} {social : SocialDb} {env : AutomationEnv}

/-! ## Keys tell reminders apart -/

/-- One of the two kinds. -/
def IsReminder (reminder : EventReminder) : Prop :=
  reminder = rsvpReminder ∨ reminder = todayReminder

theorem IsReminder.lawful {reminder : EventReminder} (h : IsReminder reminder) :
    ∃ before, reminder.Lawful before := by
  rcases h with rfl | rfl
  · exact ⟨1, lawful_rsvpReminder⟩
  · exact ⟨0, lawful_todayReminder⟩

theorem eq_of_type {reminder other : EventReminder} (h : IsReminder reminder)
    (hother : IsReminder other) (htype : reminder.type = other.type) : reminder = other := by
  rcases h with rfl | rfl
  · rcases hother with rfl | rfl
    · rfl
    · cases htype
  · rcases hother with rfl | rfl
    · cases htype
    · rfl

theorem toList_dedupeKey (reminder : EventReminder) (eventId userId : Id) (eventDate : String) :
    (reminder.dedupeKey eventId userId eventDate).toList = (reminder.name.toList ++ ':' :: eventId.toList) ++
      (':' :: userId.toList ++ ':' :: eventDate.toList) := by
  have hcolon : ":".toList = [':'] := by decide
  show (toString reminder.name ++ ":" ++ toString eventId ++ ":" ++ toString userId ++ ":" ++
    toString eventDate).toList = _
  simp [String.toList_append, toString, hcolon]

theorem dedupeKey_ne (reminder : EventReminder) (eventId userId : Id) (eventDate : String) :
    reminder.dedupeKey eventId userId eventDate ≠ "" := by
  intro heq
  have hlist := congrArg String.toList heq
  rw [toList_dedupeKey] at hlist
  simp at hlist

/-- The two kinds have names that differ where both still are. -/
theorem name_prefix {reminder : EventReminder} (h : IsReminder reminder) :
    13 ≤ reminder.name.toList.length ∧ (reminder.name.toList.take 13 =
      rsvpReminder.name.toList.take 13 ↔ reminder = rsvpReminder) := by
  rcases h with rfl | rfl
  · exact ⟨by decide, by simp⟩
  · refine ⟨by decide, ⟨fun heq => ?_, fun heq => ?_⟩⟩
    · exact absurd heq (by decide)
    · have htype := congrArg EventReminder.type heq
      cases htype

theorem dedupeKey_inj {reminder other : EventReminder} (h : IsReminder reminder)
    (hother : IsReminder other) {eventId otherId userId : Id} {date otherDate : Date}
    (heq : reminder.dedupeKey eventId userId (toDateOnlyString date) =
      other.dedupeKey otherId userId (toDateOnlyString otherDate)) :
    reminder = other ∧ eventId = otherId := by
  have hlist := congrArg String.toList heq
  rw [toList_dedupeKey, toList_dedupeKey] at hlist
  have hlength : (':' :: userId.toList ++ ':' :: (toDateOnlyString date).toList).length =
      (':' :: userId.toList ++ ':' :: (toDateOnlyString otherDate).toList).length := by
    simp [length_toDateOnlyString]
  obtain ⟨hfront, -⟩ := List.append_inj' hlist hlength
  obtain ⟨hlong, hname⟩ := name_prefix h
  obtain ⟨hotherLong, hotherName⟩ := name_prefix hother
  have hsame : reminder.name.toList.take 13 = other.name.toList.take 13 := by
    have htake := congrArg (List.take 13) hfront
    rwa [List.take_append_of_le_length hlong, List.take_append_of_le_length hotherLong] at htake
  have hreminder : reminder = other := by
    rcases h with rfl | rfl
    · exact (hotherName.mp hsame.symm).symm
    · rcases hother with rfl | rfl
      · exact hname.mp hsame
      · rfl
  subst hreminder
  have hid := List.append_cancel_left hfront
  exact ⟨rfl, String.toList_inj.mp (List.cons.inj hid).2⟩

/-! ## What a run reads -/

/-- The timezone that counts for the user is so far away. -/
structure Located (env : AutomationEnv) (s : PushDb) (userId : Id) (offset : Int) : Prop where
  user : s.hasUser userId = true
  installation : ∃ i, (s.activeInstallations userId).head? = some i ∧ i.timezone ≠ "" ∧
    env.intl.offset i.timezone env.now = some offset

theorem localTimeOf_located {userId : Id} {offset : Int} (h : Located env s userId offset) :
    localTimeOf env.intl env.now (listUsersWithLatestTimezone s) userId =
      some (clockAt env.intl (env.now + offset)) := by
  obtain ⟨i, hhead, htimezone, hoffset⟩ := h.installation
  obtain ⟨user, huser, hid⟩ := List.any_eq_true.mp h.user
  have hsame : user.id = userId := by simpa using hid
  have hlatest : ∀ context ∈ listUsersWithLatestTimezone s, context.id = userId →
      context.timezone = i.timezone := by
    intro context hcontext hcontextId
    obtain ⟨u, -, rfl⟩ := List.mem_map.mp (List.mem_filter.mp hcontext).1
    rw [show u.id = userId from hcontextId, hhead]
    rfl
  have hlisted : ((listUsersWithLatestTimezone s).find? (·.id == userId)).isSome := by
    rw [List.find?_isSome]
    refine ⟨⟨user.id, i.timezone⟩, List.mem_filter.mpr ⟨List.mem_map.mpr ⟨user, ?_, ?_⟩, ?_⟩, hid⟩
    · refine List.mem_filter.mpr ⟨huser, ?_⟩
      rw [hsame]
      cases hactive : s.activeInstallations userId with
      | nil =>
          rw [hactive] at hhead
          cases hhead
      | cons j rest => rfl
    · rw [hsame, hhead]
      rfl
    · simpa using htimezone
  obtain ⟨context, hfind⟩ := Option.isSome_iff_exists.mp hlisted
  have hcontext := hlatest context (List.mem_of_find?_eq_some hfind)
    (by simpa using List.find?_some hfind)
  unfold localTimeOf tryGetLocalDateTime
  rw [hfind, Option.bind_some, hcontext, hoffset]
  rfl

/-- Who is shown a time is a user. -/
theorem hasUser_of_localTimeOf {intl : Intl} {now : Date} {userId : Id} {localTime : LocalDateTime}
    (h : localTimeOf intl now (listUsersWithLatestTimezone s) userId = some localTime) :
    s.hasUser userId = true := by
  obtain ⟨context, hfind, -⟩ := Option.bind_eq_some_iff.mp h
  have hid : context.id = userId := by simpa using List.find?_some hfind
  obtain ⟨u, hu, rfl⟩ := List.mem_map.mp (List.mem_filter.mp (List.mem_of_find?_eq_some hfind)).1
  exact List.any_eq_true.mpr ⟨u, (List.mem_filter.mp hu).1, by simpa using hid⟩

/-- The row of an event, as it is read. -/
structure RowOf (social : SocialDb) (event : GroupEvent) (row : EventRow) : Prop where
  stored : event ∈ social.events.rows
  id : row.id = event.id
  date : row.date = event.date
  members : ∀ userId, userId ∈ row.members ↔ ∃ member ∈ social.members.rows,
    member.groupId = event.groupId ∧ member.status = .accepted ∧ member.userId = userId
  rsvps : row.rsvps = social.rsvps.rows.filter (·.eventId == event.id)

theorem eventRow_spec {event : GroupEvent} (hevent : event ∈ social.events.rows) {row : EventRow}
    (h : eventRow social event = some row) : RowOf social event row := by
  obtain ⟨group, hgroup, hplace⟩ := Option.bind_eq_some_iff.mp h
  obtain ⟨place, -, rfl⟩ := Option.map_eq_some_iff.mp hplace
  have hid : group.id = event.groupId := by simpa using List.find?_some hgroup
  refine ⟨hevent, rfl, rfl, fun userId => ?_, rfl⟩
  constructor
  · intro hmem
    obtain ⟨member, hmember, huser⟩ := List.mem_map.mp hmem
    obtain ⟨hstored, hcols⟩ := List.mem_filter.mp hmember
    rw [Bool.and_eq_true, beq_iff_eq, beq_iff_eq] at hcols
    exact ⟨member, hstored, hcols.1.trans hid, hcols.2, huser⟩
  · rintro ⟨member, hstored, hgroupId, hstatus, huser⟩
    refine List.mem_map.mpr ⟨member, List.mem_filter.mpr ⟨hstored, ?_⟩, huser⟩
    rw [Bool.and_eq_true, beq_iff_eq, beq_iff_eq]
    exact ⟨hgroupId.trans hid.symm, hstatus⟩

/-- No event is without its group or its place. -/
theorem eventRow_isSome {event : GroupEvent} (hevent : event ∈ social.events.rows) :
    ∃ row, eventRow social event = some row := by
  obtain ⟨group, hgroup, hgroupId⟩ := social.event_group event hevent
  obtain ⟨place, hplace, hplaceId⟩ := social.event_place event hevent
  have hfindGroup : (social.groups.rows.find? (·.id == event.groupId)).isSome :=
    List.find?_isSome.mpr ⟨group, hgroup, by simpa using hgroupId⟩
  have hfindPlace : (social.places.rows.find? (·.id == event.placeId)).isSome :=
    List.find?_isSome.mpr ⟨place, hplace, by simpa using hplaceId⟩
  obtain ⟨group', hgroup'⟩ := Option.isSome_iff_exists.mp hfindGroup
  obtain ⟨place', hplace'⟩ := Option.isSome_iff_exists.mp hfindPlace
  unfold eventRow
  rw [hgroup', hplace']
  exact ⟨_, rfl⟩

theorem mem_events_iff {reminder : EventReminder} {now : Date} {row : EventRow} :
    row ∈ reminder.events social now ↔ ∃ event ∈ social.events.rows,
      eventRow social event = some row ∧ event.status ∈ reminder.statuses ∧
        EventReminder.windowStart now ≤ event.date ∧ event.date < reminder.windowStop now := by
  unfold EventReminder.events findEvents
  rw [List.mem_filterMap]
  constructor
  · rintro ⟨event, hevent, hrow⟩
    obtain ⟨hstored, hwhere⟩ := List.mem_filter.mp ((List.mem_insertionSort _).mp hevent)
    simp only [Bool.and_eq_true, decide_eq_true_eq, List.contains_iff_mem] at hwhere
    exact ⟨event, hstored, hrow, hwhere.2, hwhere.1.1, hwhere.1.2⟩
  · rintro ⟨event, hstored, hrow, hstatus, hstart, hstop⟩
    refine ⟨event, (List.mem_insertionSort _).mpr (List.mem_filter.mpr ⟨hstored, ?_⟩), hrow⟩
    simp only [Bool.and_eq_true, decide_eq_true_eq, List.contains_iff_mem]
    exact ⟨⟨hstart, hstop⟩, hstatus⟩

theorem mem_dueInputs_iff {reminder : EventReminder} {now : Date}
    {localTime : Id → Option LocalDateTime} {input : PublishNotificationInput} :
    input ∈ reminder.dueInputs social now localTime ↔ ∃ row ∈ reminder.events social now,
      ∃ userId ∈ row.members, ∃ shown, localTime userId = some shown ∧
        reminder.isDue row userId shown = true ∧ reminder.input row userId = input := by
  unfold EventReminder.dueInputs
  rw [List.mem_flatMap]
  constructor
  · rintro ⟨row, hrow, hinput⟩
    obtain ⟨userId, huser, rfl⟩ := List.mem_map.mp hinput
    obtain ⟨hmember, hdue⟩ := List.mem_filter.mp huser
    obtain ⟨shown, hshown, hdue⟩ := (Option.any_eq_true _ _).mp hdue
    exact ⟨row, hrow, userId, hmember, shown, hshown, hdue, rfl⟩
  · rintro ⟨row, hrow, userId, hmember, shown, hshown, hdue, rfl⟩
    refine ⟨row, hrow, List.mem_map.mpr ⟨userId, List.mem_filter.mpr ⟨hmember, ?_⟩, rfl⟩⟩
    rw [hshown]
    exact hdue

/-! ## Reminders and their keys -/

/-- A notification is a reminder of an event exactly when it has its key. -/
def Keyed (social : SocialDb) (s : PushDb) : Prop :=
  ∀ n ∈ s.notifications.rows, ∀ reminder, IsReminder reminder → ∀ event ∈ social.events.rows,
    (n.type = reminder.type ∧ n.entityId = some event.id ↔
      n.dedupeKey = some (reminder.dedupeKey event.id n.userId (toDateOnlyString event.date)))

theorem keyed_input {reminder : EventReminder} (hreminder : IsReminder reminder) {event : GroupEvent}
    {row : EventRow} (hrow : RowOf social event row) {userId : Id} {publishEnv : PublishEnv}
    {n : Notification} (hn : n = notificationOf (reminder.input row userId) publishEnv 0 userId)
    {other : EventReminder} (hother : IsReminder other) {event' : GroupEvent}
    (hevent' : event' ∈ social.events.rows) :
    n.type = other.type ∧ n.entityId = some event'.id ↔
      n.dedupeKey = some (other.dedupeKey event'.id n.userId (toDateOnlyString event'.date)) := by
  have htype : n.type = reminder.type := by rw [hn]; rfl
  have hentity : n.entityId = some event.id := by rw [hn, ← hrow.id]; rfl
  have huser : n.userId = userId := by rw [hn]; rfl
  have hkey : n.dedupeKey =
      some (reminder.dedupeKey event.id userId (toDateOnlyString event.date)) := by
    rw [hn, ← hrow.id, ← hrow.date]
    rfl
  rw [htype, hentity, hkey, huser]
  constructor
  · rintro ⟨hsameType, hsameId⟩
    have hsame := social.event_unique hrow.stored hevent' (Option.some.inj hsameId)
    rw [eq_of_type hreminder hother hsameType, hsame]
  · intro hsameKey
    obtain ⟨hsame, hid⟩ := dedupeKey_inj hreminder hother (Option.some.inj hsameKey)
    rw [hsame, hid]
    exact ⟨rfl, rfl⟩

/-- Every user has an id, and every date is one. -/
structure Sound (social : SocialDb) : Prop where
  members : ∀ member ∈ social.members.rows, member.userId ≠ ""
  events : ∀ event ∈ social.events.rows, TimeValue event.date

/-- What a run publishes are reminders of events, to users who exist. -/
theorem dueInputs_spec {reminder : EventReminder} (hsound : Sound social)
    {intl : Intl} {now : Date} {input : PublishNotificationInput}
    (h : input ∈ reminder.dueInputs social now
      (localTimeOf intl now (listUsersWithLatestTimezone s))) :
    ∃ event row userId, RowOf social event row ∧ s.hasUser userId = true ∧
      ForOne input userId (reminder.dedupeKey row.id userId row.eventDate) ∧
      reminder.input row userId = input := by
  obtain ⟨row, hrow, userId, hmember, shown, hshown, -, rfl⟩ := mem_dueInputs_iff.mp h
  obtain ⟨event, hevent, heventRow, -⟩ := mem_events_iff.mp hrow
  have hrowOf := eventRow_spec hevent heventRow
  obtain ⟨member, hstored, -, -, huser⟩ := (hrowOf.members userId).mp hmember
  refine ⟨event, row, userId, hrowOf, hasUser_of_localTimeOf hshown, ?_, rfl⟩
  refine ⟨rfl, rfl, rfl, ?_, dedupeKey_ne _ _ _ _⟩
  rw [← huser]
  exact hsound.members member hstored

/-! ## One run -/

/-- The ids of the run are new, and all are different. -/
structure FreshIds (env : AutomationEnv) (s : PushDb) : Prop where
  rsvp : FreshFrom env.rsvpEnv 0 s
  today : FreshFrom env.todayEnv 0 s
  apart : ∀ k l, (env.rsvpEnv k).notificationId 0 ≠ (env.todayEnv l).notificationId 0

/-- The reminders that are due when the run starts. -/
def dueNow (env : AutomationEnv) (social : SocialDb) (s : PushDb) (reminder : EventReminder) :
    List PublishNotificationInput :=
  reminder.dueInputs social env.now
    (localTimeOf env.intl env.now (listUsersWithLatestTimezone s))

theorem runRsvpReminders_eq : runRsvpReminders env social
    (localTimeOf env.intl env.now (listUsersWithLatestTimezone s)) =
      publishAll env.rsvpEnv 0 (dueNow env social s rsvpReminder) := by
  unfold runRsvpReminders dueNow
  rfl

theorem runTodayReminders_eq : runTodayReminders env social
    (localTimeOf env.intl env.now (listUsersWithLatestTimezone s)) =
      publishAll env.todayEnv 0 (dueNow env social s todayReminder) := by
  unfold runTodayReminders dueNow
  rfl

structure RunOf (env : AutomationEnv) (social : SocialDb) (s t : PushDb) : Prop where
  kept : ∀ n ∈ s.notifications.rows, n ∈ t.notifications.rows
  reached : ∀ reminder, IsReminder reminder → ∀ input ∈ dueNow env social s reminder,
    ∀ userId key, ForOne input userId key → HasKey t userId key
  new : ∀ n ∈ t.notifications.rows, n ∈ s.notifications.rows ∨
    ∃ reminder, IsReminder reminder ∧ ∃ input ∈ dueNow env social s reminder, ∃ publishEnv userId,
      input.recipientIds = [userId] ∧ n = notificationOf input publishEnv 0 userId

theorem addressed_dueNow (hsound : Sound social) (reminder : EventReminder)
    (husers : t.users = s.users) : Addressed t (dueNow env social s reminder) := by
  intro input hinput
  obtain ⟨event, row, userId, -, huser, hforOne, -⟩ := dueInputs_spec hsound hinput
  refine ⟨userId, _, hforOne, ?_⟩
  unfold PushDb.hasUser at huser ⊢
  rwa [husers]

theorem runDueAutomations_run (hsound : Sound social) (hfresh : FreshIds env s) :
    (∃ result, ((runDueAutomations env social).run s).result = .ok result) ∧
      RunOf env social s ((runDueAutomations env social).run s).store := by
  have hrsvpAddressed : Addressed s (dueNow env social s rsvpReminder) :=
    addressed_dueNow hsound rsvpReminder rfl
  obtain ⟨rsvps, hrsvp, hfirst⟩ := publishAll_run hrsvpAddressed hfresh.rsvp
  have htodayAddressed : Addressed
      ((publishAll env.rsvpEnv 0 (dueNow env social s rsvpReminder)).run s).store
      (dueNow env social s todayReminder) := addressed_dueNow hsound todayReminder hfirst.users
  have htodayFresh : FreshFrom env.todayEnv 0
      ((publishAll env.rsvpEnv 0 (dueNow env social s rsvpReminder)).run s).store := by
    refine ⟨fun k hk n hn => ?_, hfresh.today.distinct⟩
    rcases hfirst.new n hn with hold | ⟨input, -, l, userId, -, rfl⟩
    · exact hfresh.today.unused k hk n hold
    · exact hfresh.apart l k
  obtain ⟨todays, htoday, hsecond⟩ := publishAll_run htodayAddressed htodayFresh
  unfold runDueAutomations
  rw [run_bind_ok (by rw [run_query]), run_query]
  dsimp only
  rw [runRsvpReminders_eq, runTodayReminders_eq, run_bind_ok hrsvp, run_bind_ok htoday,
    run_pure]
  dsimp only
  refine ⟨⟨_, rfl⟩, ⟨fun n hn => hsecond.kept n (hfirst.kept n hn), ?_, ?_⟩⟩
  · rintro reminder (rfl | rfl) input hinput userId key hforOne
    · exact (hfirst.reached input hinput userId key hforOne).later hsecond.kept
    · exact hsecond.reached input hinput userId key hforOne
  · intro n hn
    rcases hsecond.new n hn with hmiddle | ⟨input, hinput, k, userId, hrecipient, hnew⟩
    · rcases hfirst.new n hmiddle with hold | ⟨input, hinput, k, userId, hrecipient, hnew⟩
      · exact .inl hold
      · exact .inr ⟨rsvpReminder, .inl rfl, input, hinput, env.rsvpEnv k, userId, hrecipient, hnew⟩
    · exact .inr ⟨todayReminder, .inr rfl, input, hinput, env.todayEnv k, userId, hrecipient, hnew⟩

/-- A run adds reminders under their keys. -/
theorem RunOf.keyed (h : RunOf env social s t) (hsound : Sound social) (hkeyed : Keyed social s) :
    Keyed social t := by
  intro n hn other hother event' hevent'
  rcases h.new n hn with hold | ⟨reminder, hreminder, input, hinput, publishEnv, userId, hone, hnew⟩
  · exact hkeyed n hold other hother event' hevent'
  · obtain ⟨event, row, userId', hrow, -, -, rfl⟩ := dueInputs_spec hsound hinput
    have hsame : userId' = userId := (List.cons.inj hone).1
    rw [hsame] at hnew
    exact keyed_input hreminder hrow hnew hother hevent'

/-! ## One run after the other -/

/-- What others do in between: they send no reminders, and take no notification away. -/
structure Between (social : SocialDb) (s t : PushDb) : Prop where
  kept : ∀ userId key, HasKey s userId key → HasKey t userId key
  keyed : Keyed social s → Keyed social t

/-- Those who have a phone are where they are, and the clock goes. Who has no active
installation has no offset, and nothing is said of them. -/
structure Ready (offset : Id → Option Int) (env : AutomationEnv) (s : PushDb) : Prop where
  now : ClockReading env.now
  fresh : FreshIds env s
  located : ∀ userId, ∀ away ∈ offset userId, Located env s userId away

inductive Runs (social : SocialDb) (offset : Id → Option Int) :
    PushDb → List AutomationEnv → PushDb → Prop
  | done {s t : PushDb} (between : Between social s t) : Runs social offset s [] t
  | run {s u t : PushDb} {env : AutomationEnv} {envs : List AutomationEnv}
      (between : Between social s u) (ready : Ready offset env u)
      (rest : Runs social offset ((runDueAutomations env social).run u).store envs t) :
      Runs social offset s (env :: envs) t

section runs

variable {offset : Id → Option Int} {envs : List AutomationEnv}

theorem Runs.keyed (h : Runs social offset s envs t) (hsound : Sound social)
    (hkeyed : Keyed social s) : Keyed social t := by
  induction h with
  | done between => exact between.keyed hkeyed
  | run between ready rest ih =>
      exact ih ((runDueAutomations_run hsound ready.fresh).2.keyed hsound (between.keyed hkeyed))

theorem Runs.kept (h : Runs social offset s envs t) (hsound : Sound social) {userId : Id}
    {key : String} (hhas : HasKey s userId key) : HasKey t userId key := by
  induction h with
  | done between => exact between.kept userId key hhas
  | run between ready rest ih =>
      exact ih ((between.kept userId key hhas).later
        (runDueAutomations_run hsound ready.fresh).2.kept)

/-- What is due in one of the runs has been published in the end. -/
theorem Runs.reached (h : Runs social offset s envs t) (hsound : Sound social)
    {reminder : EventReminder} (hreminder : IsReminder reminder) {userId : Id} {key : String}
    {env : AutomationEnv} (henv : env ∈ envs)
    (hdue : ∀ u, Ready offset env u →
      ∃ input ∈ dueNow env social u reminder, ForOne input userId key) : HasKey t userId key := by
  induction h with
  | done between => cases henv
  | run between ready rest ih =>
      rw [List.mem_cons] at henv
      rcases henv with rfl | henv
      · obtain ⟨input, hinput, hforOne⟩ := hdue _ ready
        have hrun := (runDueAutomations_run hsound ready.fresh).2
        exact rest.kept hsound (hrun.reached reminder hreminder input hinput userId key hforOne)
      · exact ih henv

theorem Runs.ready (h : Runs social offset s envs t) {env : AutomationEnv} (henv : env ∈ envs) :
    ∃ u, Ready offset env u := by
  induction h with
  | done between => cases henv
  | run between ready rest ih =>
      rw [List.mem_cons] at henv
      rcases henv with rfl | henv
      · exact ⟨_, ready⟩
      · exact ih henv

/-! ## Once -/

/-- The reminders of the event that the user has. -/
def remindersOf (s : PushDb) (reminder : EventReminder) (eventId userId : Id) :
    List Notification :=
  s.notifications.rows.filter fun n =>
    n.type == reminder.type && n.entityId == some eventId && n.userId == userId

/-- Under one key there is one notification. -/
theorem Keyed.length_remindersOf (h : Keyed social s) {reminder : EventReminder}
    (hreminder : IsReminder reminder) {event : GroupEvent} (hevent : event ∈ social.events.rows)
    {userId : Id}
    (hhas : HasKey s userId (reminder.dedupeKey event.id userId (toDateOnlyString event.date))) :
    (remindersOf s reminder event.id userId).length = 1 := by
  obtain ⟨n, hn, huser, hkey⟩ := hhas
  refine Table.length_filter_eq_one hn ?_ fun a ha b hb hcolsA hcolsB => ?_
  · obtain ⟨htype, hentity⟩ := (h n hn reminder hreminder event hevent).mpr (by rw [huser, hkey])
    simp [htype, hentity, huser]
  · simp only [Bool.and_eq_true, beq_iff_eq] at hcolsA hcolsB
    have hkeyA := (h a ha reminder hreminder event hevent).mp hcolsA.1
    have hkeyB := (h b hb reminder hreminder event hevent).mp hcolsB.1
    rw [hcolsA.2] at hkeyA
    rw [hcolsB.2] at hkeyB
    simp [conflicts, hkeyA, hkeyB, hcolsA.2, hcolsB.2]

/-- The event is reminded of in the hour that starts on time, if at all. -/
theorem mem_dueNow (hsound : Sound social) {reminder : EventReminder} {before : Int}
    (hlawful : reminder.Lawful before) (ready : Ready offset env u) {event : GroupEvent}
    (hevent : event ∈ social.events.rows) (hstatus : event.status ∈ reminder.statuses)
    {row : EventRow} (hrow : eventRow social event = some row) {member : GroupMember}
    (hmember : member ∈ social.members.rows) (hgroup : member.groupId = event.groupId)
    (haccepted : member.status = .accepted) {away : Int} (haway : away ∈ offset member.userId)
    (hnear : Near away) (hskips : reminder.skips row member.userId = false)
    (hstart : dueAt before reminder.hour event.date away ≤ env.now)
    (hstop : env.now < dueAt before reminder.hour event.date away + HOUR) :
    reminder.input row member.userId ∈ dueNow env social u reminder := by
  have hrowOf := eventRow_spec hevent hrow
  have hdate : TimeValue row.date := by
    rw [hrowOf.date]
    exact hsound.events event hevent
  have hdue : reminder.isDue row member.userId
      (clockAt env.intl (env.now + away)) = true := by
    rw [isDue_iff hlawful hdate ready.now hnear, hrowOf.date]
    exact ⟨hskips, hstart, hstop⟩
  have hshows : (clockAt env.intl (env.now + away)).date =
      reminder.reminderDate row := by
    unfold EventReminder.isDue at hdue
    simp only [Bool.and_eq_true, beq_iff_eq] at hdue
    exact hdue.1.2
  have hwindow := within_window hlawful hdate ready.now hnear hshows
  rw [hrowOf.date] at hwindow
  refine mem_dueInputs_iff.mpr ⟨row, mem_events_iff.mpr ⟨event, hevent, hrow, hstatus, hwindow⟩,
    member.userId, (hrowOf.members _).mpr ⟨member, hmember, hgroup, haccepted, rfl⟩, _,
    localTimeOf_located (ready.located _ away haway), hdue, rfl⟩

/-- The runs come into the hour that starts then: one of them before it is over,
one of them after it has started. -/
def Covers (envs : List AutomationEnv) (start : Int) : Prop :=
  (∃ env ∈ envs, env.now < start + HOUR) ∧ ∃ env ∈ envs, start ≤ env.now

/-- From one run to the next it is an hour at most. -/
def NoGap (envs : List AutomationEnv) : Prop :=
  (envs.map (·.now)).IsChain fun a b => a ≤ b ∧ b ≤ a + HOUR

theorem Covers.exists_run {start : Int} (h : Covers envs start) (hgap : NoGap envs) :
    ∃ env ∈ envs, start ≤ env.now ∧ env.now < start + HOUR := by
  obtain ⟨⟨early, hearly, hbefore⟩, late, hlate, hafter⟩ := h
  obtain ⟨time, htime, hin⟩ := exists_in_hour hgap
    ⟨early.now, List.mem_map_of_mem hearly, hbefore⟩ ⟨late.now, List.mem_map_of_mem hlate, hafter⟩
  obtain ⟨env, henv, rfl⟩ := List.mem_map.mp htime
  exact ⟨env, henv, hin⟩

theorem Runs.length_remindersOf (h : Runs social offset s envs t) (hsound : Sound social)
    (hkeyed : Keyed social s) (hgap : NoGap envs) {reminder : EventReminder}
    (hreminder : IsReminder reminder) {before : Int} (hlawful : reminder.Lawful before)
    {event : GroupEvent} (hevent : event ∈ social.events.rows)
    (hstatus : event.status ∈ reminder.statuses) {member : GroupMember}
    (hmember : member ∈ social.members.rows) (hgroup : member.groupId = event.groupId)
    (haccepted : member.status = .accepted) {away : Int} (haway : away ∈ offset member.userId)
    (hnear : Near away)
    (hskips : ∀ row, eventRow social event = some row → reminder.skips row member.userId = false)
    (hcovers : Covers envs (dueAt before reminder.hour event.date away)) :
    (remindersOf t reminder event.id member.userId).length = 1 := by
  obtain ⟨env, henv, hstart, hstop⟩ := hcovers.exists_run hgap
  obtain ⟨row, hrow⟩ := eventRow_isSome hevent
  have hrowOf := eventRow_spec hevent hrow
  have hhas : HasKey t member.userId
      (reminder.dedupeKey event.id member.userId (toDateOnlyString event.date)) := by
    refine h.reached hsound hreminder henv fun u ready => ⟨reminder.input row member.userId,
      mem_dueNow hsound hlawful ready hevent hstatus hrow hmember hgroup haccepted haway hnear
        (hskips row hrow) hstart hstop, ?_⟩
    refine ⟨rfl, rfl, ?_, hsound.members member hmember, dedupeKey_ne _ _ _ _⟩
    rw [← hrowOf.id, ← hrowOf.date]
    rfl
  exact (h.keyed hsound hkeyed).length_remindersOf hreminder hevent hhas

/-- An accepted member with a phone that has not declined has one reminder of the
confirmed event in the morning of its day, one that has not answered has one in the
evening before, and no run leaves out an event that is due somewhere. -/
theorem reminders_go_out_once (hsound : Sound social) (hkeyed : Keyed social s)
    (hnear : ∀ userId, ∀ away ∈ offset userId, Near away)
    (hruns : Runs social offset s envs t) (hgap : NoGap envs) :
    (∀ event ∈ social.events.rows, ∀ member ∈ social.members.rows,
      member.groupId = event.groupId → member.status = .accepted →
      ∀ away ∈ offset member.userId,
      (event.status = .confirmed →
        (∀ rsvp ∈ social.rsvps.rows, rsvp.eventId = event.id → rsvp.userId = member.userId →
          rsvp.rsvp ≠ .declined) →
        Covers envs (dueAt 0 9 event.date away) →
        (remindersOf t todayReminder event.id member.userId).length = 1) ∧
      (event.status = .proposed ∨ event.status = .confirmed →
        (∀ rsvp ∈ social.rsvps.rows, rsvp.eventId = event.id → rsvp.userId ≠ member.userId) →
        Covers envs (dueAt 1 18 event.date away) →
        (remindersOf t rsvpReminder event.id member.userId).length = 1)) ∧
    (∀ reminder, IsReminder reminder → ∀ env ∈ envs, ∀ event ∈ social.events.rows,
      event.status ∈ reminder.statuses → ∀ row, eventRow social event = some row →
      ∀ away, Near away →
      (clockAt env.intl (env.now + away)).date = reminder.reminderDate row →
      row ∈ reminder.events social env.now) := by
  refine ⟨fun event hevent member hmember hgroup haccepted away haway => ⟨?_, ?_⟩, ?_⟩
  · intro hconfirmed hdeclined hcovers
    refine hruns.length_remindersOf hsound hkeyed hgap (.inr rfl) lawful_todayReminder hevent
      (by rw [hconfirmed]; decide) hmember hgroup haccepted haway (hnear _ away haway)
      (fun row hrow => ?_) hcovers
    show row.rsvps.any _ = false
    rw [(eventRow_spec hevent hrow).rsvps, List.any_eq_false]
    intro rsvp hrsvp
    obtain ⟨hstored, hid⟩ := List.mem_filter.mp hrsvp
    have hanswer := hdeclined rsvp hstored (by simpa using hid)
    simpa using hanswer
  · intro hopen hunanswered hcovers
    have hstatus : event.status ∈ rsvpReminder.statuses := by
      rcases hopen with hproposed | hconfirmed
      · rw [hproposed]
        decide
      · rw [hconfirmed]
        decide
    refine hruns.length_remindersOf hsound hkeyed hgap (.inl rfl) lawful_rsvpReminder hevent
      hstatus hmember hgroup haccepted haway (hnear _ away haway) (fun row hrow => ?_) hcovers
    show (row.rsvps.map (·.userId)).contains member.userId = false
    rw [(eventRow_spec hevent hrow).rsvps, List.contains_eq_mem, decide_eq_false_iff_not]
    intro hmem
    obtain ⟨rsvp, hrsvp, huser⟩ := List.mem_map.mp hmem
    obtain ⟨hstored, hid⟩ := List.mem_filter.mp hrsvp
    exact hunanswered rsvp hstored (by simpa using hid) huser
  · intro reminder hreminder env henv event hevent hstatus row hrow away haway hshows
    obtain ⟨before, hlawful⟩ := hreminder.lawful
    obtain ⟨u, ready⟩ := hruns.ready henv
    have hdate := (eventRow_spec hevent hrow).date
    have htime : TimeValue row.date := by
      rw [hdate]
      exact hsound.events event hevent
    have hwindow := within_window hlawful htime ready.now haway hshows
    rw [hdate] at hwindow
    exact mem_events_iff.mpr ⟨event, hevent, hrow, hstatus, hwindow⟩

end runs

/-! ## A plan of Ana's -/

/-- Ana has a plan at that time, and is its only member. -/
def anasPlan (date : Date) : SocialDb :=
  ((createPlan (anEnv "g1" ["m1"]) (aPublicPlan "C0DE" date)).run threeUsers).store

/-- Beto has joined it. -/
def joinedPlan (date : Date) : SocialDb :=
  ((joinPlan (anEnv "g1" ["m2"]) "g1" "beto").run (anasPlan date)).store

/-- Ana has a phone in Rosario, and beto has none. -/
def anasPhone : PushDb where
  users := anaBetoAndCaro
  settings := .empty
  notifications := .empty
  installations := .singleton
    { id := "i1", userId := "ana", installationId := "phone", token := "tok", platform := .ios,
      timezone := "America/Argentina/Cordoba", lastSeenAt := 0, createdAt := 0 }
  deliveries := .empty
  delivery_notification := PushDb.no_notification
  delivery_installation := by simp

/-- Every run writes the ids of its reminders with letters of its own. -/
def idsOf (letter : Char) (index : Nat) : PublishEnv where
  now := 0
  notificationId _ := String.ofList (List.replicate (index + 1) letter)
  deliveryId _ _ := ""

/-- A run, by a clock that knows one timezone. -/
def aRun (now : Date) (letters : Char × Char) : AutomationEnv where
  now := now
  intl := { offset := fun _ _ => some (-3 * HOUR), midnightIs24 := true }
  rsvpEnv := idsOf letters.1
  todayEnv := idsOf letters.2

theorem freshIds_aRun {now : Date} {letters : Char × Char} (hletters : letters.1 ≠ letters.2)
    (hnone : s.notifications.rows = []) : FreshIds (aRun now letters) s := by
  have hinj : ∀ (letter : Char) (k l : Nat), (idsOf letter k).notificationId 0 =
      (idsOf letter l).notificationId 0 → k = l := by
    intro letter k l heq
    have hlength := congrArg List.length (String.ofList_inj.mp heq)
    simpa using hlength
  have hunused : ∀ (letter : Char), FreshFrom (idsOf letter) 0 s := fun letter =>
    { unused := fun k _ n hn => by simp [hnone] at hn
      distinct := hinj letter }
  refine ⟨hunused _, hunused _, fun k l heq => ?_⟩
  have hhead := congrArg List.head? (String.ofList_inj.mp heq)
  rw [List.replicate_succ, List.replicate_succ] at hhead
  exact hletters (by simpa using hhead)

/-- The seventeenth of July 2026, at eight in the evening. -/
def anEvening : Date := 20651 * DAY + 20 * HOUR

def anasEvent (date : Date) : GroupEvent := (aPublicPlan "C0DE" date).event (anEnv "g1" ["m1"])

def anasMembership : GroupMember where
  id := "m1"
  groupId := "g1"
  userId := "ana"
  role := .owner
  status := .accepted
  createdAt := 0

theorem sound_anasPlan : Sound (joinedPlan anEvening) where
  members := by decide
  events := by
    have hdates : ∀ event ∈ (joinedPlan anEvening).events.rows, event.date = anEvening := by
      decide
    intro event hevent
    rw [hdates event hevent]
    unfold TimeValue anEvening DAY HOUR MINUTE
    omega

theorem keyed_anasPhone (social : SocialDb) : Keyed social anasPhone := by
  intro n hn
  cases hn

theorem Between.refl (social : SocialDb) (s : PushDb) : Between social s s :=
  ⟨fun _ _ h => h, fun h => h⟩

/-- Where the phones are. -/
def inRosario (userId : Id) : Option Int := if userId = "ana" then some (-3 * HOUR) else none

theorem mem_inRosario {userId : Id} {away : Int} (h : away ∈ inRosario userId) :
    userId = "ana" ∧ away = -3 * HOUR := by
  unfold inRosario at h
  split at h
  · rename_i hana
    cases h
    exact ⟨hana, rfl⟩
  · cases h

theorem ready_aRun {now : Date} {letters : Char × Char} (hnow : ClockReading now)
    (hletters : letters.1 ≠ letters.2) (hnone : s.notifications.rows = [])
    (huser : s.hasUser "ana" = true)
    (hphone : (s.activeInstallations "ana").head?.any (·.timezone != "") = true) :
    Ready inRosario (aRun now letters) s where
  now := hnow
  fresh := freshIds_aRun hletters hnone
  located := by
    intro userId away haway
    obtain ⟨rfl, rfl⟩ := mem_inRosario haway
    obtain ⟨i, hi, htimezone⟩ := (Option.any_eq_true _ _).mp hphone
    exact ⟨huser, i, hi, by simpa using htimezone, rfl⟩

/-- Twenty minutes to nine in Rosario, and twenty past nine. -/
def twoRuns : List AutomationEnv :=
  [aRun (20651 * DAY + 11 * HOUR + 40 * MINUTE) ('a', 'b'),
    aRun (20651 * DAY + 12 * HOUR + 20 * MINUTE) ('c', 'd')]

def afterRuns (social : SocialDb) (s : PushDb) (envs : List AutomationEnv) : PushDb :=
  envs.foldl (fun s env => ((runDueAutomations env social).run s).store) s

theorem runs_twoRuns : Runs (joinedPlan anEvening) inRosario anasPhone twoRuns
    (afterRuns (joinedPlan anEvening) anasPhone twoRuns) := by
  refine .run (.refl _ _) (ready_aRun ?_ (by decide) (by decide) (by decide) (by decide))
    (.run (.refl _ _) (ready_aRun ?_ (by decide) (by decide) (by decide)
      (by decide)) (.done (.refl _ _)))
  · unfold ClockReading DAY HOUR MINUTE
    omega
  · unfold ClockReading DAY HOUR MINUTE
    omega

/-- Ana is reminded of her plan in the second run, and beto has no phone. -/
theorem ana_is_reminded_once : (remindersOf (afterRuns (joinedPlan anEvening) anasPhone twoRuns)
    todayReminder (anasEvent anEvening).id anasMembership.userId).length = 1 := by
  have hgap : NoGap twoRuns := by
    unfold NoGap twoRuns aRun DAY HOUR MINUTE
    decide
  have hcovers : Covers twoRuns (dueAt 0 9 anEvening (-3 * HOUR)) := by
    refine ⟨⟨_, List.mem_cons_self, ?_⟩, ⟨_, List.mem_cons_of_mem _ List.mem_cons_self, ?_⟩⟩
    · unfold dueAt utcDay anEvening aRun DAY HOUR MINUTE
      decide
    · unfold dueAt utcDay anEvening aRun DAY HOUR MINUTE
      decide
  have honce := (reminders_go_out_once sound_anasPlan (keyed_anasPhone _)
    (fun _ _ haway => by
      rw [(mem_inRosario haway).2]
      unfold Near DAY HOUR MINUTE
      omega) runs_twoRuns hgap).1
  exact (honce (anasEvent anEvening) (by decide) anasMembership (by decide) rfl rfl
    _ rfl).1 rfl (by decide) hcovers

end Feca.Reminders
