import Feca.Social.Events

/-! # The plans service

`PlansService`, request by request: what each one checks, in which order, what
it writes through the repository and whom it notifies.
-/

namespace Feca.Social

open Concurrency Concurrency.Prog Relational

/-! ## Guards -/

def requirePlan (groupId : Id) : SocialProg GroupWithRelations := do
  match ← query fun s => s.findPlanById groupId with
  | none => throwHttp (NotFoundException "Plan not found")
  | some plan => pure plan

def assertAccepted (userId groupId : Id) : SocialProg Unit := do
  let membership ← findMembership groupId userId
  if membership.map (·.status) ≠ some .accepted then
    throwHttp (ForbiddenException (some "PLAN_ACCEPTED_MEMBERS_ONLY")
      "Esta acción requiere ser miembro aprobado del plan.")
  else pure ()

/-- The user administers the plan as it was read. -/
def GroupWithRelations.isAdministeredBy (plan : GroupWithRelations) (userId : Id) : Bool :=
  match plan.membershipOf userId with
  | none => false
  | some membership => membership.status == .accepted &&
      (membership.role == .owner || membership.role == .admin)

def assertAdmin (userId : Id) (plan : GroupWithRelations) : SocialProg Unit :=
  if plan.isAdministeredBy userId then pure ()
  else throwHttp (ForbiddenException (some "PLAN_ADMIN_REQUIRED")
    "Solo el creador o un administrador puede realizar esta acción.")

/-- `listAdminIds`, without the one who acts. -/
def adminIds (groupId excludedUserId : Id) : SocialProg (List Id) :=
  query fun s => (s.adminIds groupId).filter (· != excludedUserId)

/-- A notification about a group, with its name. -/
def groupNotification (type : Push.NotificationType) (actorId groupId : Id) (groupName : String)
    (recipientIds : List Id) (more : List (String × Option Json)) :
    Push.PublishNotificationInput where
  actorId := some actorId
  entity := some { id := groupId, kind := .group }
  payload := some ([("groupId", some (.string groupId)), ("groupName", some (.string groupName))] ++
    more)
  recipientIds := recipientIds
  type := type

/-! ## get -/

/-- What `get` does once it has read the plan and the viewer's membership. -/
def presentPlan (env : PlansEnv) (userId : Id) (plan : GroupWithRelations)
    (membership : Option GroupMember) : SocialProg PlanView :=
  if plan.visibility ≠ .«public» ∧ membership = none then
    throwHttp (NotFoundException "Plan not found")
  else if plan.visibility ≠ .«public» ∧ membership.map (·.status) ≠ some .accepted then
    throwHttp (ForbiddenException (some "PLAN_MEMBERSHIP_REQUIRED")
      "Aceptá la invitación o solicitud antes de ver este plan.")
  else do
    let followedIds ← query fun s => s.followedIds userId
    pure (serializePlan plan userId followedIds
      (membership.map (·.status) == some .accepted) (nextEvent env.now plan))

def PlansService.get (env : PlansEnv) (userId groupId : Id) : SocialProg PlanView := do
  let plan ← requirePlan groupId
  let membership ← findMembership groupId userId
  presentPlan env userId plan membership

/-! ## join -/

/-- Whom a change of membership is announced to. -/
def announceJoin (userId groupId : Id) (groupName : String) (result : JoinResult) :
    SocialProg Unit :=
  if result.changed then do
    let recipientIds ← adminIds groupId userId
    let type := if result.kind = .requested then .groupJoinRequest else .groupJoined
    publish (groupNotification type userId groupId groupName recipientIds [])
  else pure ()

def PlansService.join (env : PlansEnv) (userId groupId : Id) : SocialProg PlanView := do
  let plan ← requirePlan groupId
  match ← joinPlan env.toSocialEnv groupId userId with
  | none => throwHttp (NotFoundException "Plan not found")
  | some result =>
      if result.kind = .denied then
        throwHttp (ForbiddenException (some "PLAN_INVITE_ONLY")
          "Este plan solo admite personas invitadas.")
      else do
        announceJoin userId groupId plan.name result
        PlansService.get env userId groupId

/-! ## Leaving and join requests -/

def PlansService.leave (userId groupId : Id) : SocialProg Unit := do
  let _ ← requirePlan groupId
  match ← leavePlan groupId userId with
  | none => throwHttp (NotFoundException "No formas parte de este plan")
  | some .owner => throwHttp (ForbiddenException none
      "El creador no puede abandonar el plan sin transferir la administración.")
  | some (.left _) => pure ()

def PlansService.cancelJoinRequest (userId groupId : Id) : SocialProg Unit := do
  let _ ← requirePlan groupId
  let count ← Social.cancelJoinRequest groupId userId
  if count = 0 then throwHttp (NotFoundException "Join request not found") else pure ()

def PlansService.decideJoinRequest (userId groupId membershipId : Id) (approve : Bool) : SocialProg Unit := do
  let plan ← requirePlan groupId
  assertAdmin userId plan
  match ← query fun s => (s.joinRequests groupId).find? (·.id == membershipId) with
  | none => throwHttp (NotFoundException "Join request not found")
  | some target =>
      let count ← Social.decideJoinRequest groupId membershipId approve
      if count = 0 then throwHttp (NotFoundException "Join request not found")
      else publish (groupNotification (if approve then .groupJoinApproved else .groupJoinRejected)
        userId groupId plan.name [target.userId] [])

/-! ## RSVP -/

def PlansService.setRsvp (env : PlansEnv) (userId groupId eventId : Id) (rsvp : RsvpInput) :
    SocialProg PlanView := do
  assertAccepted userId groupId
  let _ ← SocialGroupEventsService.setGroupEventRsvp env userId groupId eventId rsvp
  PlansService.get env userId groupId

/-! ## Messages -/

structure MessageWithAuthor extends GroupMessage where
  author : User

structure MessageView where
  author : UserPublic
  body : String
  createdAt : Date
  id : Id
  planId : Id
  deriving DecidableEq, Repr

def serializeMessage (message : MessageWithAuthor) : MessageView where
  author := serializeUserPublic message.author
  body := message.body
  createdAt := message.createdAt
  id := message.id
  planId := message.groupId

structure MessagePage where
  messages : List MessageView
  nextCursor : Option String
  deriving DecidableEq, Repr

structure ListPlanMessagesQuery where
  since : Option String := none
  limit : Option Nat := none
  cursor : Option String := none
  deriving DecidableEq, Repr

/-- `orderBy: [{ createdAt: "desc" }, { id: "desc" }]`. -/
def messageBefore (a b : GroupMessage) : Prop :=
  a.createdAt > b.createdAt ∨ (a.createdAt = b.createdAt ∧ a.id ≥ b.id)

instance : DecidableRel messageBefore := fun a b => by
  unfold messageBefore
  infer_instance

namespace SocialDb

def messageWithAuthor (s : SocialDb) (m : GroupMessage) : Option MessageWithAuthor :=
  (s.findUser m.authorId).map fun author => { m with author }

/-- The repository's `listMessages`: a page, and whether there are more. -/
def messagePage (s : SocialDb) (groupId : Id) (limit : Nat) (cursor : Option Cursor)
    (since : Option Date) : List MessageWithAuthor × Bool :=
  let rows := ((s.messages.rows.filter fun m => m.groupId == groupId && m.deletedAt == none &&
    (since.all fun date => m.createdAt > date) && (cursor.all fun c =>
      m.createdAt < c.date || (m.createdAt == c.date && m.id < c.id))).insertionSort
        messageBefore).take (limit + 1)
  ((rows.take limit).filterMap s.messageWithAuthor, rows.length > limit)

def insertMessage (s : SocialDb) (m : GroupMessage) : Except Thrown SocialDb :=
  if hadm : s.hasGroup m.groupId = true ∧ s.hasUser m.authorId = true then
    match h : s.messages.insert m with
    | none => .error uniqueViolation
    | some messages => .ok
        { s with
          messages
          message_author := by
            intro x hx
            rw [(Table.insert_eq_some h).1, List.mem_append, List.mem_singleton] at hx
            rcases hx with hx | rfl
            · exact s.message_author x hx
            · exact exists_of_hasUser hadm.2 }
  else .error foreignKeyViolation

/-- `groupMessage.updateMany` with a time of deletion. -/
def markDeleted (s : SocialDb) (p : GroupMessage → Bool) (now : Date) : SocialDb :=
  { s with
    messages := s.messages.update p fun m => { m with deletedAt := some now }
    message_author := by
      intro m hm
      obtain ⟨x, hx, rfl⟩ := Table.mem_update.mp hm
      have hu := s.message_author x hx
      split
      · exact hu
      · exact hu }

end SocialDb

def createMessage (m : GroupMessage) : SocialProg MessageWithAuthor :=
  stmt fun s =>
    match s.insertMessage m with
    | .error e => ⟨s, [.threw e], .error (.database e)⟩
    | .ok t =>
        match t.messageWithAuthor m with
        | some message => ⟨t, [], .ok message⟩
        | none => ⟨s, [.threw recordNotFound], .error (.database recordNotFound)⟩

/-- The repository's `deleteMessage`. -/
def removeMessage (now : Date) (groupId messageId : Id) : SocialProg Nat :=
  stmt fun s =>
    let live := fun m : GroupMessage =>
      m.id == messageId && m.groupId == groupId && m.deletedAt == none
    ⟨s.markDeleted live now, [], .ok (s.messages.rows.filter live).length⟩

/-- An invalid date reaches the database client, which refuses it. -/
def dateArgument (codec : CursorCodec) (text : Option String) : SocialProg (Option Date) :=
  match text.bind orNull with
  | none => pure none
  | some value =>
      match codec.parseDate value with
      | some date => pure (some date)
      | none => .fail (.database (.error "Provided Date object is invalid."))

def cursorArgument (codec : CursorCodec) (cursor : Option String) : SocialProg (Option Cursor) :=
  match cursor.bind orNull with
  | none => pure none
  | some text =>
      match decodeMessageCursor codec text with
      | .ok cursor => pure (some cursor)
      | .error exception => throwHttp exception

def PlansService.listMessages (env : PlansEnv) (userId groupId : Id) (query : ListPlanMessagesQuery) :
    SocialProg MessagePage := do
  assertAccepted userId groupId
  let cursor ← cursorArgument env.codec query.cursor
  let since ← dateArgument env.codec query.since
  let (messages, hasMore) ←
    Prog.query fun s => s.messagePage groupId (query.limit.getD 20) cursor since
  pure { messages := messages.map serializeMessage
         nextCursor := if hasMore then
             messages.getLast?.map fun last => encodeMessageCursor env.codec last.createdAt last.id
           else none }

def PlansService.sendMessage (env : PlansEnv) (userId groupId : Id) (body : String) :
    SocialProg MessageView := do
  assertAccepted userId groupId
  let message ← createMessage
    { id := env.messageId, groupId, authorId := userId, body := trim body, createdAt := env.now }
  let recipientIds ← query fun s => s.acceptedMemberIds groupId (some userId)
  let plan ← requirePlan groupId
  publish (groupNotification .groupMessage userId groupId plan.name recipientIds
    [("messageId", some (.string message.id))])
  pure (serializeMessage message)

def PlansService.deleteMessage (env : PlansEnv) (userId groupId messageId : Id) : SocialProg Unit := do
  let plan ← requirePlan groupId
  assertAdmin userId plan
  let count ← removeMessage env.now groupId messageId
  if count = 0 then throwHttp (NotFoundException "Message not found") else pure ()

end Feca.Social
