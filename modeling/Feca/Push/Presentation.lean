import Feca.Push.Schema

/-! # What a notification says

The title, the body and the link of every notification type, from the actor,
the entity and the strings of the payload.
-/

namespace Feca.Push

/-- `serializeUserSummary`. -/
structure UserSummary where
  avatarUrl : Option String
  city : Option String
  displayName : String
  id : Id
  username : String

def serializeUserSummary (user : User) : UserSummary :=
  ⟨user.avatarUrl, user.city, user.displayName, user.id, user.username⟩

structure NotificationEntity where
  id : Id
  kind : NotificationEntityType

structure NotificationPresentation where
  title : String
  body : String
  deepLink : Option String

/-- A payload that is a JSON object; anything else counts as no data. -/
def normalizeNotificationData : Json → Option (List (String × Json))
  | .object fields => some fields
  | _ => none

/-- A string field of the payload that is not blank. -/
def readNotificationString (data : Option (List (String × Json))) (key : String) :
    Option String :=
  match (data.getD []).lookup key with
  | some (.string value) => if (trim value).length > 0 then some value else none
  | _ => none

def mapRsvpLabel : Option String → String
  | some "going" => "\"voy\""
  | some "maybe" => "\"quizás\""
  | some "declined" => "\"no voy\""
  | _ => "\"sin respuesta\""

/-- Title and body must both be given. -/
def readCustomNotificationPresentation (data : Option (List (String × Json))) :
    Option NotificationPresentation :=
  match readNotificationString data "title", readNotificationString data "body" with
  | some title, some body => some ⟨title, body, readNotificationString data "deepLink"⟩
  | _, _ => none

/-- `id ? … : null`. -/
def linkTo (root : String) (id : Option Id) (rest : String := "") : Option String :=
  (id.filter (· ≠ "")).map fun id => root ++ id ++ rest

/-- `actor?.displayName || actor?.username || "Alguien"`. -/
def actorNameOf (actor : Option UserSummary) : String :=
  ((actor.bind fun a => orNull a.displayName).orElse fun _ =>
    actor.bind fun a => orNull a.username).getD "Alguien"

def buildNotificationPresentation (type : NotificationType) (actor : Option UserSummary)
    (data : Option (List (String × Json))) (entity : Option NotificationEntity) :
    NotificationPresentation :=
  let actorName := actorNameOf actor
  let custom := readCustomNotificationPresentation data
  let read := readNotificationString data
  let orEntity := fun (id : Option Id) => id.orElse fun _ => entity.map (·.id)
  let groupLink := linkTo "/group/" (orEntity (read "groupId"))
  -- The event notifications do not fall back on the entity, which is the event.
  let eventGroupLink := linkTo "/group/" (read "groupId")
  let placeRoute := (read "placeGooglePlaceId").orElse fun _ => read "placeId"
  let groupName := (read "groupName").getD "tu plan"
  match type with
  | .follow =>
      ⟨"Nuevo seguidor", s!"{actorName} empezó a seguirte",
        actor.map fun a => "/user/" ++ a.id⟩
  | .groupInvite =>
      ⟨"Invitación a un plan", s!"{actorName} te invitó a {groupName}", groupLink⟩
  | .groupJoined =>
      ⟨"Nuevo miembro en el plan", s!"{actorName} se sumó a {groupName}", groupLink⟩
  | .groupJoinRequest =>
      ⟨"Nueva solicitud para tu plan", s!"{actorName} quiere sumarse a {groupName}", groupLink⟩
  | .groupJoinApproved =>
      ⟨"Solicitud aprobada",
        "Ya podés participar en " ++ (read "groupName").getD "un plan", groupLink⟩
  | .groupJoinRejected =>
      ⟨"Solicitud rechazada",
        "Tu solicitud para " ++ (read "groupName").getD "ese plan" ++ " no fue aprobada",
        groupLink⟩
  | .groupMessage =>
      ⟨"Mensaje nuevo", "Hay un mensaje nuevo en " ++ (read "groupName").getD "un plan",
        linkTo "/group/" (orEntity (read "groupId")) "/chat"⟩
  | .groupReport =>
      ⟨"Plan reportado",
        match read "reason" with
        | some reason => s!"{actorName} reportó {groupName}: {reason}"
        | none => s!"{actorName} reportó {groupName}", groupLink⟩
  | .groupEventProposed =>
      ⟨"Nuevo plan propuesto",
        actorName ++ " propuso " ++ (read "placeName").getD "un lugar" ++ " para " ++ groupName,
        eventGroupLink⟩
  | .groupEventRsvp =>
      ⟨"Nuevo RSVP",
        actorName ++ " respondió " ++ mapRsvpLabel (read "rsvp") ++ " para " ++
          (read "placeName").getD "el plan",
        eventGroupLink⟩
  | .visitCreated =>
      ⟨"Nueva visita", actorName ++ " visitó " ++ (read "placeName").getD "un lugar",
        linkTo "/place/" placeRoute⟩
  | .diaryPublished =>
      ⟨"Nueva guía publicada", actorName ++ " publicó " ++ (read "diaryName").getD "una guía",
        linkTo "/diary/" (orEntity (read "diaryId"))⟩
  | .groupInviteReminder =>
      custom.getD ⟨"Invitación pendiente",
        s!"Todavía tenés pendiente la invitación a {groupName}", groupLink⟩
  | .groupEventRsvpReminder =>
      custom.getD ⟨"Recordatorio de RSVP",
        "Falta tu respuesta para " ++ (read "placeName").getD "tu plan", eventGroupLink⟩
  | .groupEventTodayReminder =>
      custom.getD ⟨"Plan para hoy",
        "Tu plan de hoy sigue en pie: " ++ (read "placeName").getD "tu plan", eventGroupLink⟩
  | .weeklyDigest =>
      custom.getD ⟨"Resumen semanal", "Mirá lo más interesante de tu red esta semana.",
        some "/notifications"⟩
  | .contextualRecommendation =>
      custom.getD ⟨"Recomendación para vos",
        "Tenemos una recomendación para tu próxima salida: " ++
          (read "placeName").getD "un lugar",
        linkTo "/place/" (orEntity placeRoute)⟩

structure SerializedNotification extends NotificationPresentation where
  actor : Option UserSummary
  createdAt : Date
  data : Option (List (String × Json))
  entity : Option NotificationEntity
  id : Id
  read : Bool
  type : NotificationType

def serializeNotification (notification : NotificationWithRelations) : SerializedNotification :=
  let actor := notification.actor.map serializeUserSummary
  let data := normalizeNotificationData notification.payload
  let entity := notification.entityType.bind fun kind =>
    (notification.entityId.bind orNull).map fun id => ⟨id, kind⟩
  { buildNotificationPresentation notification.type actor data entity with
    actor
    createdAt := notification.createdAt
    data
    entity
    id := notification.id
    read := notification.readAt.isSome
    type := notification.type }

/-- A blank string of the payload is read as an absent one. -/
theorem readNotificationString_ne_empty {data : Option (List (String × Json))} {key value : String}
    (h : readNotificationString data key = some value) : value ≠ "" := by
  unfold readNotificationString at h
  split at h
  · split at h
    · rename_i hlen
      cases h
      rintro rfl
      simp [trim] at hlen
    · cases h
  · cases h

/-- Every notification type comes with a title, custom texts included. -/
theorem buildNotificationPresentation_title_ne_empty (type : NotificationType)
    (actor : Option UserSummary) (data : Option (List (String × Json)))
    (entity : Option NotificationEntity) :
    (buildNotificationPresentation type actor data entity).title ≠ "" := by
  have hcustom : ∀ fallback : NotificationPresentation, fallback.title ≠ "" →
      ((readCustomNotificationPresentation data).getD fallback).title ≠ "" := by
    intro fallback hfallback
    unfold readCustomNotificationPresentation
    split
    · rename_i title _ htitle _
      exact readNotificationString_ne_empty htitle
    · exact hfallback
  cases type <;> first
    | exact hcustom _ (by simp)
    | simp [buildNotificationPresentation]

end Feca.Push
