import Feca.Plans.Service
import Feca.Social.Service

/-! # Proposing and editing

`SocialGroupEventsService.addGroupEvent`, `SocialGroupsService.updateGroup` and
the two requests of `PlansService` that create and update a plan. The place of
an event is stored already, or the places service finds it at Google.
-/

namespace Feca.Social

open Concurrency Concurrency.Prog Relational

/-- Groups and everything in them are as they were. -/
structure SameContent (s t : SocialDb) : Prop where
  groups : t.groups = s.groups
  members : t.members = s.members
  events : t.events = s.events
  rsvps : t.rsvps = s.rsvps
  messages : t.messages = s.messages

theorem SameContent.refl (s : SocialDb) : SameContent s s := ⟨rfl, rfl, rfl, rfl, rfl⟩

theorem SameContent.trans {s t u : SocialDb} (hst : SameContent s t) (htu : SameContent t u) :
    SameContent s u :=
  ⟨htu.groups.trans hst.groups, htu.members.trans hst.members, htu.events.trans hst.events,
    htu.rsvps.trans hst.rsvps, htu.messages.trans hst.messages⟩

/-- `PlacesService.resolve` of a Google place: it writes places and cities. -/
structure AuthoringEnv extends PlansEnv where
  resolve : String → SocialProg Place
  resolve_same : ∀ googlePlaceId, (resolve googlePlaceId).Always fun s t _ => SameContent s t

/-! ## Writes -/

structure GroupData where
  name : Option String := none
  description : Option (Option String) := none
  visibility : Option GroupVisibility := none
  joinPolicy : Option GroupJoinPolicy := none
  placeProposalPolicy : Option PlaceProposalPolicy := none
  memberProposalInteraction : Option MemberProposalInteraction := none
  deriving DecidableEq, Repr

/-- The columns that are not `undefined`. -/
def Group.set (g : Group) (data : GroupData) : Group :=
  { g with
    name := data.name.getD g.name
    description := data.description.getD g.description
    visibility := data.visibility.getD g.visibility
    joinPolicy := data.joinPolicy.getD g.joinPolicy
    placeProposalPolicy := data.placeProposalPolicy.getD g.placeProposalPolicy
    memberProposalInteraction := data.memberProposalInteraction.getD g.memberProposalInteraction }

structure EventData where
  date : Option Date := none
  placeId : Option Id := none
  deriving DecidableEq, Repr

def GroupEvent.set (e : GroupEvent) (data : EventData) : GroupEvent :=
  { e with
    date := data.date.getD e.date
    placeId := data.placeId.getD e.placeId }

namespace SocialDb

/-- `group.update`. -/
def setGroup (s : SocialDb) (groupId : Id) (data : GroupData) : SocialDb :=
  { s with
    groups := s.groups.update (·.id == groupId) (·.set data)
    group_creator := by
      intro g hg
      obtain ⟨x, hx, rfl⟩ := Table.mem_update.mp hg
      have hu := s.group_creator x hx
      split
      · exact hu
      · exact hu
    member_group := by
      intro m hm
      obtain ⟨g, hg, hid⟩ := s.member_group m hm
      refine ⟨_, Table.mem_update.mpr ⟨g, hg, rfl⟩, ?_⟩
      split
      · exact hid
      · exact hid
    event_group := by
      intro e he
      obtain ⟨g, hg, hid⟩ := s.event_group e he
      refine ⟨_, Table.mem_update.mpr ⟨g, hg, rfl⟩, ?_⟩
      split
      · exact hid
      · exact hid }

/-- `groupEvent.update`, to a place that is stored. -/
def setEvent (s : SocialDb) (eventId : Id) (data : EventData)
    (hplace : ∀ id, data.placeId = some id → s.hasPlace id = true) : SocialDb :=
  { s with
    events := s.events.update (·.id == eventId) (·.set data)
    event_group := by
      intro e he
      obtain ⟨x, hx, rfl⟩ := Table.mem_update.mp he
      have hg := s.event_group x hx
      split
      · exact hg
      · exact hg
    event_place := by
      intro e he
      obtain ⟨x, hx, rfl⟩ := Table.mem_update.mp he
      split
      · cases hdata : data.placeId with
        | none => simpa [GroupEvent.set, hdata] using s.event_place x hx
        | some id => simpa [GroupEvent.set, hdata] using exists_of_hasPlace (hplace id hdata)
      · exact s.event_place x hx
    event_proposer := by
      intro e he
      obtain ⟨x, hx, rfl⟩ := Table.mem_update.mp he
      have hu := s.event_proposer x hx
      split
      · exact hu
      · exact hu }

def updateEvent (s : SocialDb) (eventId : Id) (data : EventData) : Except Thrown SocialDb :=
  if s.events.rows.any (·.id == eventId) then
    if hplace : ∀ id, data.placeId = some id → s.hasPlace id = true then
      .ok (s.setEvent eventId data hplace)
    else .error foreignKeyViolation
  else .error recordNotFound

end SocialDb

/-- `group.update`, answered with its relations. -/
def updateGroupRow (groupId : Id) (data : GroupData) : SocialProg GroupWithRelations :=
  stmt fun s =>
    match (s.setGroup groupId data).findGroupById groupId with
    | some group => ⟨s.setGroup groupId data, [], .ok group⟩
    | none => ⟨s, [.threw recordNotFound], .error (.database recordNotFound)⟩

/-- `groupEvent.create`, answered with its relations. -/
def createEvent (e : GroupEvent) : SocialProg EventWithRelations :=
  stmt fun s =>
    match s.insertEvent e with
    | .error error => ⟨s, [.threw error], .error (.database error)⟩
    | .ok t =>
        match t.eventWithRelations e with
        | some event => ⟨t, [], .ok event⟩
        | none => ⟨s, [.threw recordNotFound], .error (.database recordNotFound)⟩

def updateEvent (eventId : Id) (data : EventData) : SocialProg Unit :=
  stmt fun s =>
    match s.updateEvent eventId data with
    | .ok t => ⟨t, [], .ok ()⟩
    | .error error => ⟨s, [.threw error], .error (.database error)⟩

/-- `new Date(…)` of what a request says, as the database client takes it. -/
def eventDate (codec : CursorCodec) (date : String) : SocialProg Date :=
  match codec.parseDate date with
  | some date => pure date
  | none => .fail (.database (.error "Provided Date object is invalid."))

/-! ## The place of an event -/

structure PlaceInput where
  placeId : Option Id := none
  googlePlaceId : Option String := none
  deriving DecidableEq, Repr

/-- `getPlaceById`, if there is an id. -/
def findPlace (placeId : Option Id) : SocialProg (Option Place) :=
  match placeId.bind orNull with
  | none => pure none
  | some id => query fun s => s.places.rows.find? (·.id == id)

def resolveWritablePlace (env : AuthoringEnv) (input : PlaceInput) : SocialProg Place := do
  match ← findPlace input.placeId with
  | some place => pure place
  | none =>
      match input.googlePlaceId.bind orNull with
      | some googlePlaceId => env.resolve googlePlaceId
      | none => throwHttp (BadRequestException "placeId or googlePlaceId is required")

/-! ## addGroupEvent -/

structure AddGroupEventDto extends PlaceInput where
  date : String
  deriving DecidableEq, Repr

def buildAcceptedGroupMemberRecipientIds (group : GroupWithRelations) (excludedUserIds : List Id) :
    List Id :=
  ((group.members.filter (·.status == .accepted)).map (·.userId)).filter
    fun userId => !excludedUserIds.contains userId

def proposedNotification (userId : Id) (date : String) (event : EventWithRelations)
    (group : GroupWithRelations) : Push.PublishNotificationInput where
  actorId := some userId
  entity := some { id := event.id, kind := .groupEvent }
  payload := some [("eventDate", some (.string date)), ("eventId", some (.string event.id)),
    ("groupId", some (.string group.id)), ("groupName", some (.string group.name)),
    ("placeName", some (.string event.place.name))]
  recipientIds := buildAcceptedGroupMemberRecipientIds group [userId]
  type := .groupEventProposed

/-- The proposals of other members are announcements where they are locked. -/
def proposalStatus (group : Group) (userId : Id) : GroupEventStatus :=
  if group.memberProposalInteraction = .announcementLocked ∧ userId ≠ group.createdById then
    .announcement
  else .proposed

def SocialGroupEventsService.addGroupEvent (env : AuthoringEnv) (userId groupId : Id)
    (body : AddGroupEventDto) : SocialProg EventWithRelations := do
  match ← query fun s => s.findGroupById groupId with
  | none => throwHttp (NotFoundException "Group not found")
  | some group =>
      assertGroupAccess userId groupId
      if group.placeProposalPolicy = .ownerOnly ∧ userId ≠ group.createdById then
        throwHttp (UnprocessableEntityException "PROPOSAL_NOT_ALLOWED"
          "Solo el creador del plan puede proponer eventos.")
      else do
        let place ← resolveWritablePlace env body.toPlaceInput
        let date ← eventDate env.codec body.date
        let event ← createEvent
          { id := env.eventId, groupId, placeId := place.id, proposedById := userId, date,
            status := proposalStatus group.toGroup userId, createdAt := env.now }
        publish (proposedNotification userId body.date event group)
        pure event

/-! ## updateGroup -/

structure UpdateGroupDto where
  name : Option String := none
  visibility : Option GroupVisibility := none
  placeProposalPolicy : Option PlaceProposalPolicy := none
  memberProposalInteraction : Option MemberProposalInteraction := none
  deriving DecidableEq, Repr

def UpdateGroupDto.data (body : UpdateGroupDto) : GroupData where
  name := body.name.map trim
  visibility := body.visibility
  placeProposalPolicy := body.placeProposalPolicy
  memberProposalInteraction := body.memberProposalInteraction

def SocialGroupsService.updateGroup (userId groupId : Id) (body : UpdateGroupDto) :
    SocialProg GroupWithRelations := do
  match ← query fun s => s.findGroupById groupId with
  | none => throwHttp (NotFoundException "Group not found")
  | some _ =>
      if body.name = none ∧ body.visibility = none ∧ body.placeProposalPolicy = none ∧
          body.memberProposalInteraction = none then
        throwHttp (BadRequestException "No hay campos para actualizar")
      else do
        assertGroupAdminAccess userId groupId
        updateGroupRow groupId body.data

/-! ## Plans -/

structure CreatePlanDto extends PlaceInput where
  name : String
  description : Option String := none
  joinPolicy : Option GroupJoinPolicy := none
  visibility : Option GroupVisibility := none
  inviteUserIds : Option (List Id) := none
  date : String
  deriving DecidableEq, Repr

def CreatePlanDto.input (body : CreatePlanDto) (userId : Id) (inviteCode : String) (date : Date)
    (placeId : Id) : CreatePlanInput where
  createdById := userId
  date := date
  description := body.description
  inviteCode := inviteCode
  inviteUserIds := body.inviteUserIds
  joinPolicy := body.joinPolicy
  name := trim body.name
  placeId := placeId
  visibility := body.visibility

/-- With the invite code that was generated for the call. -/
def PlansService.create (env : AuthoringEnv) (inviteCode : String) (userId : Id)
    (body : CreatePlanDto) : SocialProg PlanView := do
  let place ← resolveWritablePlace env body.toPlaceInput
  let date ← eventDate env.codec body.date
  let created ← createPlan env.toSocialEnv (body.input userId inviteCode date place.id)
  let plan := created.plan
  let _ ← if created.invitedUserIds.length > 0 then
      publish (groupNotification .groupInvite userId plan.id plan.name created.invitedUserIds
        [("inviteCode", some (.string plan.inviteCode))])
    else pure ()
  pure (serializePlan plan userId [] true plan.events.head?)

structure UpdatePlanDto extends PlaceInput where
  name : Option String := none
  description : Option (Option String) := none
  joinPolicy : Option GroupJoinPolicy := none
  date : Option String := none
  deriving DecidableEq, Repr

def UpdatePlanDto.groupData (body : UpdatePlanDto) : GroupData where
  name := body.name.map trim
  description := body.description.map fun description => (description.map trim).bind orNull
  joinPolicy := body.joinPolicy

/-- The event of the plan, if anything of it is to be written. -/
def writePlanEvent (codec : CursorCodec) (eventId : Option Id) (date : Option String)
    (placeId : Option Id) : SocialProg Unit :=
  match eventId.bind orNull with
  | none => pure ()
  | some eventId =>
      if date = none ∧ placeId = none then pure ()
      else do
        let date ← match date with
          | none => pure none
          | some date => some <$> eventDate codec date
        updateEvent eventId { date, placeId }

/-- `findUniqueOrThrow` with `planInclude`. -/
def findPlanOrThrow (groupId : Id) : SocialProg GroupWithRelations := do
  match ← query fun s => s.findPlanById groupId with
  | some plan => pure plan
  | none => .fail (.database recordNotFound)

/-- The repository's transaction. -/
def updatePlan (codec : CursorCodec) (groupId : Id) (data : GroupData) (eventId : Option Id)
    (date : Option String) (placeId : Option Id) : SocialProg GroupWithRelations :=
  transaction do
    let _ ← updateGroupRow groupId data
    writePlanEvent codec eventId date placeId
    findPlanOrThrow groupId

def PlansService.update (env : AuthoringEnv) (userId groupId : Id) (body : UpdatePlanDto) :
    SocialProg PlanView := do
  let plan ← requirePlan groupId
  assertAdmin userId plan
  if body.name = none ∧ body.description = none ∧ body.joinPolicy = none ∧ body.date = none ∧
      body.placeId = none ∧ body.googlePlaceId = none then
    throwHttp (BadRequestException "No hay campos para actualizar")
  else do
    let place ← if body.placeId = none ∧ body.googlePlaceId = none then pure none
      else some <$> resolveWritablePlace env body.toPlaceInput
    let event := (nextEvent env.now plan).or plan.events.head?
    let updated ← updatePlan env.codec groupId body.groupData (event.map (·.id)) body.date
      (place.map (·.id))
    pure (serializePlan updated userId [] true (nextEvent env.now updated))

end Feca.Social
