import Feca.Push.Publish
import Feca.Reminders.Clock
import Feca.Social.Schema

/-! # Reminders of events

A run of the automations reads what time it is for every user with an active
installation, and publishes the reminders that are due: the evening before an
event to the members that have not answered, and in the morning of its day to
those that have not declined. The groups and their events are `social`.
-/

namespace Feca.Reminders

open Concurrency Concurrency.Prog Push Social

/-! ## Who is where -/

structure UserTimezoneContext where
  id : Id
  timezone : String

/-- The timezone of the installation seen last; users without one are left out. -/
def listUsersWithLatestTimezone (s : PushDb) : List UserTimezoneContext :=
  ((s.users.rows.filter fun u => !(s.activeInstallations u.id).isEmpty).map fun u =>
    { id := u.id
      timezone := (((s.activeInstallations u.id).head?).map (·.timezone)).getD "" }).filter
    fun user => user.timezone != ""

/-- `localTimeByUserId`, by user. -/
def localTimeOf (intl : Intl) (now : Date) (users : List UserTimezoneContext) (userId : Id) :
    Option LocalDateTime :=
  (users.find? (·.id == userId)).bind fun user => tryGetLocalDateTime intl now user.timezone

/-! ## The events -/

/-- An event as `groupEvent.findMany` selects it. -/
structure EventRow where
  id : Id
  date : Date
  groupId : Id
  groupName : String
  placeName : String
  /-- The accepted members of the group. -/
  members : List Id
  rsvps : List GroupEventRsvp

section social

variable (social : SocialDb)

def eventRow (event : GroupEvent) : Option EventRow :=
  (social.groups.rows.find? (·.id == event.groupId)).bind fun group =>
    (social.places.rows.find? (·.id == event.placeId)).map fun place =>
      { id := event.id
        date := event.date
        groupId := group.id
        groupName := group.name
        placeName := place.name
        members := (social.members.rows.filter fun m =>
          m.groupId == group.id && m.status == .accepted).map (·.userId)
        rsvps := social.rsvps.rows.filter (·.eventId == event.id) }

/-- `orderBy: [{ date: "asc" }, { createdAt: "asc" }]`. -/
def eventBefore (a b : GroupEvent) : Bool :=
  decide (a.date < b.date) || (a.date == b.date && decide (a.createdAt ≤ b.createdAt))

/-- `groupEvent.findMany`. -/
def findEvents (statuses : List GroupEventStatus) (gte lt : Date) : List EventRow :=
  ((social.events.rows.filter fun event => decide (gte ≤ event.date) && decide (event.date < lt) &&
    statuses.contains event.status).insertionSort fun a b => eventBefore a b).filterMap
      (eventRow social)

end social

def EventRow.eventDate (event : EventRow) : String := toDateOnlyString event.date

/-! ## The reminders -/

/-- What the two kinds of reminders do not share. -/
structure EventReminder where
  type : NotificationType
  statuses : List GroupEventStatus
  /-- The events are read from yesterday to so many days from now. -/
  windowEnd : Int
  /-- The members that do not get it. -/
  skips : EventRow → Id → Bool
  /-- The local date on which it is due. -/
  reminderDate : EventRow → String
  hour : Nat
  /-- What the key starts with. -/
  name : String
  title : String
  body : EventRow → String

def rsvpReminder : EventReminder where
  type := .groupEventRsvpReminder
  statuses := [.proposed, .confirmed]
  windowEnd := 3
  skips event userId := (event.rsvps.map (·.userId)).contains userId
  reminderDate event := shiftDateOnly event.eventDate (-1)
  hour := 18
  name := "group-event-rsvp-reminder"
  title := "Recordatorio de RSVP"
  body event := s!"Falta tu respuesta para {event.placeName} en {event.groupName}."

def todayReminder : EventReminder where
  type := .groupEventTodayReminder
  statuses := [.confirmed]
  windowEnd := 2
  skips event userId := event.rsvps.any fun rsvp => rsvp.userId == userId && rsvp.rsvp == .declined
  reminderDate event := event.eventDate
  hour := 9
  name := "group-event-today-reminder"
  title := "Plan para hoy"
  body event := s!"Hoy tenes {event.placeName} con {event.groupName}."

namespace EventReminder

variable (reminder : EventReminder)

def dedupeKey (eventId userId : Id) (eventDate : String) : String :=
  s!"{reminder.name}:{eventId}:{userId}:{eventDate}"

def input (event : EventRow) (userId : Id) : PublishNotificationInput where
  dedupeKey := some (reminder.dedupeKey event.id userId event.eventDate)
  entity := some { id := event.id, kind := .groupEvent }
  payload := some
    [("body", some (.string (reminder.body event))),
      ("deepLink", some (.string s!"/group/{event.groupId}")),
      ("eventDate", some (.string event.eventDate)), ("eventId", some (.string event.id)),
      ("groupId", some (.string event.groupId)), ("groupName", some (.string event.groupName)),
      ("placeName", some (.string event.placeName)), ("title", some (.string reminder.title))]
  recipientIds := [userId]
  type := reminder.type

def windowStart (now : Date) : Date := startOfUtcDay (addDays now (-1))

def windowStop (now : Date) : Date := startOfUtcDay (addDays now reminder.windowEnd)

def events (social : SocialDb) (now : Date) : List EventRow :=
  findEvents social reminder.statuses (windowStart now) (reminder.windowStop now)

/-- Whether the loop comes to its `publish`. -/
def isDue (event : EventRow) (userId : Id) (localTime : LocalDateTime) : Bool :=
  !reminder.skips event userId && localTime.date == reminder.reminderDate event &&
    isDueAtLocalTime localTime reminder.hour 0

/-- What the two loops publish, in order. -/
def dueInputs (social : SocialDb) (now : Date) (localTime : Id → Option LocalDateTime) :
    List PublishNotificationInput :=
  (reminder.events social now).flatMap fun event =>
    (event.members.filter fun userId => (localTime userId).any (reminder.isDue event userId)).map
      (reminder.input event)

end EventReminder

/-- One after the other, and how many were new. -/
def publishAll (env : Nat → PublishEnv) : Nat → List PublishNotificationInput → PushProg Nat
  | _, [] => pure 0
  | index, input :: inputs => do
      let result ← publish input (env index)
      let published ← publishAll env (index + 1) inputs
      pure (result.count + published)

/-- The clock of a run, and the ids it generates for the two kinds of reminders. -/
structure AutomationEnv where
  now : Date
  intl : Intl
  rsvpEnv : Nat → PublishEnv
  todayEnv : Nat → PublishEnv

section run

variable (env : AutomationEnv) (social : SocialDb) (localTime : Id → Option LocalDateTime)

def runRsvpReminders : PushProg Nat :=
  publishAll env.rsvpEnv 0 (rsvpReminder.dueInputs social env.now localTime)

def runTodayReminders : PushProg Nat :=
  publishAll env.todayEnv 0 (todayReminder.dueInputs social env.now localTime)

end run

structure DueResult where
  rsvpReminders : Nat
  todayReminders : Nat
  deriving DecidableEq, Repr

/-- The part of `runDueAutomations` that reminds of events. -/
def runDueAutomations (env : AutomationEnv) (social : SocialDb) : PushProg DueResult := do
  let users ← query listUsersWithLatestTimezone
  let localTime := localTimeOf env.intl env.now users
  let rsvpReminders ← runRsvpReminders env social localTime
  let todayReminders ← runTodayReminders env social localTime
  pure { rsvpReminders, todayReminders }

end Feca.Reminders
