import Feca.Plans.Cursor

/-! # Answers to group events

`SocialGroupEventsService.setGroupEventRsvp` and the transaction under it.
-/

namespace Feca.Social

open Concurrency Concurrency.Prog Relational

/-- What the calls of the plan services generate beyond memberships. -/
structure PlansEnv extends SocialEnv where
  codec : CursorCodec
  rsvpId : Id
  messageId : Id

structure EventCapabilities where
  allowsConfirm : Bool
  allowsCounterProposals : Bool
  allowsRsvp : Bool
  deriving DecidableEq, Repr

def computeGroupEventCapabilityFlags (group : Group) (event : GroupEvent) : EventCapabilities :=
  match event.status with
  | .completed => ⟨false, false, false⟩
  | .cancelled => ⟨false, false, false⟩
  | .announcement => ⟨false, false, false⟩
  | .confirmed => ⟨false, false, true⟩
  | .proposed =>
      let isOwnerProposal := event.proposedById == group.createdById
      let lockedMemberProposal :=
        group.memberProposalInteraction == .announcementLocked && !isOwnerProposal
      if lockedMemberProposal then ⟨false, false, false⟩
      else ⟨true, group.placeProposalPolicy == .allMembers, true⟩

/-- `buildGroupAdminRecipientIds`. -/
def buildGroupAdminRecipientIds (group : GroupWithRelations) (excludedUserIds : List Id) :
    List Id :=
  ((group.members.filter fun member => member.status == .accepted &&
    (member.role == .owner || member.role == .admin)).map (·.userId)).filter
      fun userId => !excludedUserIds.contains userId

def buildGroupEventRsvpRecipientIds (group : GroupWithRelations) (event : GroupEvent)
    (actorUserId : Id) : List Id :=
  (distinctIds (event.proposedById :: buildGroupAdminRecipientIds group [])).filter
    (· != actorUserId)

/-- The `rsvp` of a request; `none` is its `"none"`. -/
abbrev RsvpInput := Option GroupEventRsvpStatus

def rsvpText : RsvpInput → String
  | some .going => "going"
  | some .maybe => "maybe"
  | some .declined => "declined"
  | none => "none"

/-! ## Statements -/

namespace SocialDb

def findRsvp (s : SocialDb) (eventId userId : Id) : RsvpInput :=
  (s.rsvps.rows.find? fun r => r.eventId == eventId && r.userId == userId).map (·.rsvp)

def findGroupEventById (s : SocialDb) (groupId eventId : Id) : Option EventWithRelations :=
  (s.events.rows.find? fun e => e.groupId == groupId && e.id == eventId).bind s.eventWithRelations

/-- `groupEventRsvp.upsert`. -/
def upsertRsvp (s : SocialDb) (row : GroupEventRsvp) : Except Thrown SocialDb :=
  let same := fun r : GroupEventRsvp => r.eventId == row.eventId && r.userId == row.userId
  if s.rsvps.rows.any same then
    .ok { s with rsvps := s.rsvps.update same fun r => { r with rsvp := row.rsvp } }
  else if s.events.rows.any (·.id == row.eventId) && s.hasUser row.userId then
    match s.rsvps.insert row with
    | none => .error uniqueViolation
    | some rsvps => .ok { s with rsvps }
  else .error foreignKeyViolation

end SocialDb

def deleteRsvps (eventId userId : Id) : SocialProg Unit :=
  stmt fun s => ⟨{ s with rsvps := s.rsvps.erase fun r => r.eventId == eventId && r.userId == userId },
    [], .ok ()⟩

def upsertRsvp (row : GroupEventRsvp) : SocialProg Unit :=
  stmt fun s =>
    match s.upsertRsvp row with
    | .ok t => ⟨t, [], .ok ()⟩
    | .error e => ⟨s, [.threw e], .error (.database e)⟩

structure RsvpResult where
  changed : Bool
  currentRsvp : RsvpInput
  group : GroupWithRelations
  previousRsvp : RsvpInput

def writeRsvp (env : PlansEnv) (eventId userId : Id) : RsvpInput → SocialProg Unit
  | none => deleteRsvps eventId userId
  | some rsvp => upsertRsvp { id := env.rsvpId, eventId, userId, rsvp, createdAt := env.now }

/-- The repository's transaction. -/
def setGroupEventRsvp (env : PlansEnv) (eventId userId : Id) (rsvp : RsvpInput) :
    SocialProg (Option RsvpResult) := do
  let previousRsvp ← query fun s => s.findRsvp eventId userId
  let changed := previousRsvp != rsvp
  let _ ← if changed then writeRsvp env eventId userId rsvp else pure ()
  match ← query fun s => s.events.rows.find? (·.id == eventId) with
  | none => pure none
  | some event =>
      let group ← query fun s => s.findGroupById event.groupId
      pure (group.map fun group => ⟨changed, rsvp, group, previousRsvp⟩)

/-! ## The service -/

def assertGroupAccess (userId groupId : Id) : SocialProg Unit := do
  match ← findMembership groupId userId with
  | none => throwHttp (ForbiddenException (some "GROUP_ACTION_REQUIRES_MEMBERSHIP")
      "Tenés que ser miembro del plan para realizar esta acción.")
  | some membership =>
      if membership.status = .pending ∨ membership.status = .requested then
        throwHttp (ForbiddenException (some "GROUP_INVITE_PENDING")
          "Acepta la invitación antes de interactuar con el plan.")
      else if membership.status ≠ .accepted then
        throwHttp (ForbiddenException (some "GROUP_ACTION_REQUIRES_MEMBERSHIP")
          "Ya no formas parte de este plan.")
      else pure ()

def rsvpNotification (env : PlansEnv) (userId : Id) (event : EventWithRelations)
    (rsvp : RsvpInput) (group : GroupWithRelations) : Push.PublishNotificationInput where
  actorId := some userId
  entity := some { id := event.id, kind := .groupEvent }
  payload := some [("eventDate", some (.string (formatDateOnly env.codec event.date))),
    ("eventId", some (.string event.id)), ("groupId", some (.string group.id)),
    ("groupName", some (.string group.name)), ("placeName", some (.string event.place.name)),
    ("rsvp", some (.string (rsvpText rsvp)))]
  recipientIds := buildGroupEventRsvpRecipientIds group event.toGroupEvent userId
  type := .groupEventRsvp

/-- Store the answer and tell whoever proposed the event. -/
def answerEvent (env : PlansEnv) (userId eventId : Id) (event : EventWithRelations)
    (rsvp : RsvpInput) : SocialProg GroupWithRelations := do
  match ← setGroupEventRsvp env eventId userId rsvp with
  | none => throwHttp (NotFoundException "Group not found")
  | some updated =>
      let _ ← if updated.changed && rsvp != none then
          publish (rsvpNotification env userId event rsvp updated.group)
        else pure ()
      pure updated.group

/-- The group the answer is presented with. -/
def SocialGroupEventsService.setGroupEventRsvp (env : PlansEnv) (userId groupId eventId : Id) (rsvp : RsvpInput) :
    SocialProg GroupWithRelations := do
  match ← query fun s => s.findGroupById groupId with
  | none => throwHttp (NotFoundException "Group not found")
  | some group =>
      assertGroupAccess userId groupId
      match ← query fun s => s.findGroupEventById groupId eventId with
      | none => throwHttp (NotFoundException "Event not found")
      | some event =>
          let interactionFlags :=
            computeGroupEventCapabilityFlags group.toGroup event.toGroupEvent
          if !interactionFlags.allowsRsvp && rsvp != none then
            throwHttp (UnprocessableEntityException "RSVP_NOT_ALLOWED"
              "Este evento no admite confirmar asistencia.")
          else answerEvent env userId eventId event rsvp

end Feca.Social
