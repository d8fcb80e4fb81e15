import Feca.Places.OutingPreferences
import Feca.Reminders.Today

/-! # Digests and recommendations

Beside the reminders of groups, a run of the automations tells every user on
Sunday evening what those they follow have been doing, and recommends a place in
the hours in which the user likes to go out. What other services know while the
run goes on is `world`: the recommendations of one user may fail, which leaves
the others theirs.
-/

namespace Feca.Reminders

open Concurrency Concurrency.Prog Content Places Push Social

/-! ## When a recommendation is due -/

inductive ContextualSlot
  | weekdayMorning
  | weekdayAfternoon
  | weekdayEvening
  | weekendDay
  | weekendNight
  deriving DecidableEq, Repr

def ContextualSlot.name : ContextualSlot → String
  | weekdayMorning => "weekday_morning"
  | weekdayAfternoon => "weekday_afternoon"
  | weekdayEvening => "weekday_evening"
  | weekendDay => "weekend_day"
  | weekendNight => "weekend_night"

structure ContextualSchedule where
  hour : Nat
  minute : Nat
  slot : ContextualSlot
  weekdays : List Int
  deriving DecidableEq, Repr

def CONTEXTUAL_SCHEDULES : List ContextualSchedule :=
  [{ hour := 7, minute := 30, slot := .weekdayMorning, weekdays := [1, 2, 3, 4, 5] },
    { hour := 11, minute := 0, slot := .weekdayAfternoon, weekdays := [1, 2, 3, 4, 5] },
    { hour := 16, minute := 30, slot := .weekdayEvening, weekdays := [1, 2, 3, 4, 5] },
    { hour := 9, minute := 0, slot := .weekendDay, weekdays := [0, 6] },
    { hour := 17, minute := 0, slot := .weekendNight, weekdays := [5, 6] }]

namespace ContextualSchedule

variable (schedule : ContextualSchedule)

def start : Nat := schedule.hour * 60 + schedule.minute

/-- `configured.has(slot)`, the weekday, and the hour. -/
def isDue (localTime : LocalDateTime) (configured : List String) : Bool :=
  configured.contains schedule.slot.name && schedule.weekdays.contains localTime.weekday &&
    isDueAtLocalTime localTime schedule.hour schedule.minute

end ContextualSchedule

/-- The comparison of the sort is not positive. -/
def startsLater (left right : ContextualSchedule) : Prop := right.start ≤ left.start

instance : DecidableRel startsLater := fun left right => by
  unfold startsLater
  infer_instance

/-- Where several are due, the one that starts last. -/
def pickDueContextualSlot (localTime : LocalDateTime) (configuredSlots : List String) :
    Option ContextualSlot :=
  (((CONTEXTUAL_SCHEDULES.filter (·.isDue localTime configuredSlots)).insertionSort
    startsLater).head?).map (·.slot)

def mapContextualIntent (slot : ContextualSlot) (companies : List String) : ExploreIntent :=
  match slot with
  | .weekdayMorning => .work2h
  | .weekdayAfternoon => .snackFast
  | .weekdayEvening => .reading
  | .weekendDay => .brunchLong
  | .weekendNight =>
      if companies.contains "couple" then .firstDate
      else if companies.contains "small_group" || companies.contains "large_group" then .group4
      else .reading

def buildContextualBody (slot : ContextualSlot) (placeName : String) : String :=
  match slot with
  | .weekdayMorning => s!"Te recomendamos {placeName} para trabajar un rato."
  | .weekdayAfternoon => s!"Te recomendamos {placeName} para una pausa rápida."
  | .weekdayEvening => s!"Te recomendamos {placeName} para bajar el ritmo."
  | .weekendDay => s!"Te recomendamos {placeName} para un plan largo de día."
  | .weekendNight => s!"Te recomendamos {placeName} para salir esta tarde."

def intentName : ExploreIntent → String
  | .openNow => "open_now"
  | .work2h => "work_2h"
  | .brunchLong => "brunch_long"
  | .solo => "solo"
  | .firstDate => "first_date"
  | .snackFast => "snack_fast"
  | .reading => "reading"
  | .group4 => "group_4"

/-! ## What a run reads -/

/-- What the other services know during a run. -/
structure AutomationWorld where
  content : ContentDb
  outingPreferences : Id → Json
  /-- `placesService.exploreContext`, the places of its answer. -/
  exploreContext : Id → ExploreIntent → Except Thrown (List NearbyPlaceView)

/-- The clock of a run, and the ids it generates for all kinds. -/
structure RunEnv extends AutomationEnv where
  inviteEnv : Nat → PublishEnv
  digestEnv : Nat → PublishEnv
  contextualEnv : Nat → PublishEnv

/-- A user, with the timezone of the installation seen last. -/
structure UserContext extends UserTimezoneContext, User

/-- `listUsersWithLatestTimezone`, with the columns that digests and recommendations read. -/
def listUserContexts (s : PushDb) : List UserContext :=
  ((s.users.rows.filter fun u => !(s.activeInstallations u.id).isEmpty).map fun u =>
    { u with
      timezone := (((s.activeInstallations u.id).head?).map (·.timezone)).getD "" :
        UserContext }).filter fun user => user.timezone != ""

section content

variable (s : ContentDb)

/-- The ids under which a place is linked to. -/
def routeIds (place : PlaceRow) : List String :=
  (place.sourcePlaceId.bind orNull).toList ++ [place.id]

def listRecentlyInteractedPlaceRouteIds (userId : Id) (since : Date) : List String :=
  let visited := (s.visits.rows.filter fun v =>
    decide (since ≤ v.createdAt) && v.userId == userId).map (·.placeId)
  let saved := (s.saves.rows.filter fun save =>
    decide (since ≤ save.createdAt) && save.userId == userId).map (·.placeId)
  distinctIds (((visited ++ saved).filterMap s.findPlaceRow).flatMap routeIds)

end content

/-! ## Invitations -/

def inviteReminderInput (m : GroupMember) (group : Group) : PublishNotificationInput where
  actorId := m.invitedById
  dedupeKey := some s!"group-invite-reminder:{m.id}"
  entity := some { id := group.id, kind := .group }
  payload := some
    [("body", some (.string s!"Todavía tenés pendiente la invitación a {group.name}.")),
      ("deepLink", some (.string s!"/group/{group.id}")),
      ("groupId", some (.string group.id)), ("groupName", some (.string group.name)),
      ("title", some (.string "Invitación pendiente"))]
  recipientIds := [m.userId]
  type := .groupInviteReminder

/-- The invitations that have been pending for a day, the oldest first. -/
def inviteInputs (social : SocialDb) (now : Date) : List PublishNotificationInput :=
  ((social.members.rows.filter fun m =>
      decide (m.createdAt ≤ now - DAY) && m.status == .pending).insertionSort
        fun a b => a.createdAt ≤ b.createdAt).filterMap fun m =>
    (social.groups.rows.find? (·.id == m.groupId)).map (inviteReminderInput m)

/-! ## Digests -/

def digestKey (userId : Id) (date : String) : String := s!"weekly-digest:{userId}:{date}"

def digestInput (userId : Id) (date : String) (digest : WeeklyDigest) :
    PublishNotificationInput where
  dedupeKey := some (digestKey userId date)
  payload := some
    [("body", some (.string digest.body)), ("deepLink", some (.string digest.deepLink)),
      ("diaryCount", some (.number digest.diaryCount)),
      ("guideId", some ((digest.guideId.map Json.string).getD .null)),
      ("guideName", some ((digest.guideName.map Json.string).getD .null)),
      ("title", some (.string digest.title)), ("visitCount", some (.number digest.visitCount))]
  recipientIds := [userId]
  type := .weeklyDigest

/-- What the turn of the user publishes, if it comes to that. -/
def digestOf (content : ContentDb) (now : Date) (user : UserContext) (localTime : LocalDateTime) :
    Option PublishNotificationInput :=
  if localTime.weekday != 0 || !isDueAtLocalTime localTime 18 0 then none
  else
    match ((weeklyDigest now user.toUser).run content).result with
    | .ok (some digest) => some (digestInput user.id localTime.date digest)
    | _ => none

/-! ## Recommendations -/

def contextualKey (slot : ContextualSlot) (userId : Id) (date : String) : String :=
  s!"contextual:{slot.name}:{userId}:{date}"

def contextualInput (slot : ContextualSlot) (userId : Id) (date : String)
    (intent : ExploreIntent) (place : NearbyPlaceView) : PublishNotificationInput where
  dedupeKey := some (contextualKey slot userId date)
  entity := some { id := place.googlePlaceId, kind := .place }
  payload := some
    [("body", some (.string (buildContextualBody slot place.name))),
      ("deepLink", some (.string s!"/place/{place.googlePlaceId}")),
      ("intent", some (.string (intentName intent))),
      ("placeGooglePlaceId", some (.string place.googlePlaceId)),
      ("placeName", some (.string place.name)), ("slot", some (.string slot.name)),
      ("title", some (.string "Recomendacion para vos"))]
  recipientIds := [userId]
  type := .contextualRecommendation

/-- The first place that the user has not been to or saved for a month. -/
def freshPlace (world : AutomationWorld) (now : Date) (userId : Id) (places : List NearbyPlaceView) :
    Option NearbyPlaceView :=
  places.find? fun candidate =>
    !(listRecentlyInteractedPlaceRouteIds world.content userId (now - 30 * DAY)).contains
      candidate.googlePlaceId

/-- What the turn of the user publishes. Where the places cannot be read, the
error is logged and nothing is. -/
def recommendationOf (world : AutomationWorld) (now : Date) (user : UserContext)
    (localTime : LocalDateTime) : Option PublishNotificationInput :=
  let preferences := readOutingPreferences (world.outingPreferences user.id)
  (pickDueContextualSlot localTime preferences.typicalOutingSlots).bind fun slot =>
    if (user.city.bind orNull).isNone || user.lat.isNone || user.lng.isNone then none
    else
      let intent := mapContextualIntent slot preferences.typicalCompanies
      match world.exploreContext user.id intent with
      | .error _ => none
      | .ok places => (freshPlace world now user.id places).map
          (contextualInput slot user.id localTime.date intent)

/-! ## The whole run -/

section run

variable (env : RunEnv) (world : AutomationWorld) (users : List UserContext)
  (localTime : Id → Option LocalDateTime)

def digestInputs : List PublishNotificationInput :=
  users.filterMap fun user => (localTime user.id).bind (digestOf world.content env.now user)

def recommendationInputs : List PublishNotificationInput :=
  users.filterMap fun user => (localTime user.id).bind (recommendationOf world env.now user)

/-- One after the other; what throws is logged. -/
def publishEachCaught (env : Nat → PublishEnv) : Nat → List PublishNotificationInput → PushProg Nat
  | _, [] => pure 0
  | index, input :: inputs => do
      let result ← (publish input (env index)).attempt
      let published ← publishEachCaught env (index + 1) inputs
      match result with
      | .ok result => pure (result.count + published)
      | .error _ => pure published

def runInviteReminders : PushProg Nat :=
  publishAll env.inviteEnv 0 (inviteInputs world.content.toSocialDb env.now)

def runWeeklyDigests : PushProg Nat :=
  publishAll env.digestEnv 0 (digestInputs env world users localTime)

def runContextualRecommendations : PushProg Nat :=
  publishEachCaught env.contextualEnv 0 (recommendationInputs env world users localTime)

end run

structure AutomationsResult where
  contextualRecommendations : Nat
  inviteReminders : Nat
  rsvpReminders : Nat
  todayReminders : Nat
  weeklyDigests : Nat
  deriving DecidableEq, Repr

/-- The reminders of groups come first. -/
def runGroupReminders (env : RunEnv) (world : AutomationWorld)
    (localTime : Id → Option LocalDateTime) : PushProg (Nat × Nat × Nat) := do
  let inviteReminders ← runInviteReminders env world
  let rsvpReminders ←
    runRsvpReminders env.toAutomationEnv world.content.toSocialDb localTime
  let todayReminders ←
    runTodayReminders env.toAutomationEnv world.content.toSocialDb localTime
  pure (inviteReminders, rsvpReminders, todayReminders)

/-- `runDueAutomations`, all of it. -/
def runEveryAutomation (env : RunEnv) (world : AutomationWorld) : PushProg AutomationsResult := do
  let users ← query listUserContexts
  let localTime := localTimeOf env.intl env.now (users.map (·.toUserTimezoneContext))
  let (inviteReminders, rsvpReminders, todayReminders) ← runGroupReminders env world localTime
  let weeklyDigests ← runWeeklyDigests env world users localTime
  let contextualRecommendations ← runContextualRecommendations env world users localTime
  pure { contextualRecommendations, inviteReminders, rsvpReminders, todayReminders,
         weeklyDigests }

end Feca.Reminders
