import Feca.Social.Events

/-! # The groups service

`SocialGroupsService.createGroup`, `addGroupMembers`, `joinGroupByCode` and
`leaveGroup`. A result carries the group it is presented with.
-/

namespace Feca.Social

open Concurrency Concurrency.Prog Relational

/-- Some invitation was refused by its invitee's policy. -/
def refusedByPolicy (rejectedInvites : List RejectedInvite) : Bool :=
  rejectedInvites.any (·.reason == .invitePolicy)

def assertNoInvitePolicyRejections (rejectedInvites : List RejectedInvite) : SocialProg Unit :=
  if refusedByPolicy rejectedInvites then
    throwHttp (UnprocessableEntityException "INVITE_NOT_ALLOWED_BY_TARGET_POLICY"
      "Esta persona solo acepta invitaciones de usuarios que sigue.")
  else pure ()

def inviteNotification (userId : Id) (result : InvitedGroup) : Push.PublishNotificationInput where
  actorId := some userId
  entity := some { id := result.group.id, kind := .group }
  payload := some [("groupId", some (.string result.group.id)),
    ("groupName", some (.string result.group.name)),
    ("inviteCode", some (.string result.group.inviteCode))]
  recipientIds := result.invitedUserIds
  type := .groupInvite

/-- The end of `createGroup` and `addGroupMembers`: the policy check comes after
the repository has written. -/
def announceInvitations (userId : Id) (result : InvitedGroup) : SocialProg InvitedGroup := do
  assertNoInvitePolicyRejections result.rejectedInvites
  let _ ← if result.invitedUserIds.length > 0 then publish (inviteNotification userId result)
    else pure ()
  pure result

structure CreateGroupDto where
  name : String
  memberIds : List Id
  visibility : Option GroupVisibility := none
  placeProposalPolicy : Option PlaceProposalPolicy := none
  memberProposalInteraction : Option MemberProposalInteraction := none
  deriving DecidableEq, Repr

def CreateGroupDto.input (userId : Id) (inviteCode : String) (body : CreateGroupDto) :
    CreateGroupInput where
  createdById := userId
  inviteCode := inviteCode
  memberIds := body.memberIds
  memberProposalInteraction := body.memberProposalInteraction
  name := trim body.name
  placeProposalPolicy := body.placeProposalPolicy
  visibility := body.visibility

/-- The `catch` of `createGroup`: a unique violation becomes a conflict. -/
def createGroupFailure : Failure → Failure
  | .database (.known code message) =>
      if code = "P2002" then
        .http (ConflictException "No se pudo generar un código de invitación")
      else .database (.known code message)
  | failure => failure

/-- With the invite code that was generated for the call. -/
def SocialGroupsService.createGroup (env : SocialEnv) (inviteCode : String) (userId : Id)
    (body : CreateGroupDto) : SocialProg InvitedGroup := do
  let answer ← (do
    let result ← Social.createGroup env (body.input userId inviteCode)
    announceInvitations userId result : SocialProg InvitedGroup).attempt
  match answer with
  | .ok result => pure result
  | .error failure => .fail (createGroupFailure failure)

def joinedNotification (userId : Id) (group : GroupWithRelations) :
    Push.PublishNotificationInput where
  actorId := some userId
  entity := some { id := group.id, kind := .group }
  payload := some [("groupId", some (.string group.id)), ("groupName", some (.string group.name))]
  recipientIds := buildGroupAdminRecipientIds group [userId]
  type := .groupJoined

def SocialGroupsService.joinGroupByCode (env : SocialEnv) (userId : Id) (code : String) :
    SocialProg GroupWithRelations := do
  match ← Social.joinGroupByCode env userId code with
  | none => throwHttp (NotFoundException "Group not found")
  | some result =>
      let _ ← if result.joinedNow then publish (joinedNotification userId result.group)
        else pure ()
      pure result.group

def assertGroupAdminAccess (userId groupId : Id) : SocialProg Unit := do
  match ← findMembership groupId userId with
  | none => throwHttp (ForbiddenException (some "GROUP_ACTION_REQUIRES_MEMBERSHIP")
      "Tenés que ser miembro del plan para realizar esta acción.")
  | some membership =>
      if membership.status ≠ .accepted then
        throwHttp (ForbiddenException (some "GROUP_ADMIN_REQUIRED")
          "Solo miembros activos pueden gestionar el plan.")
      else if membership.role ≠ .owner ∧ membership.role ≠ .admin then
        throwHttp (ForbiddenException (some "GROUP_ADMIN_REQUIRED")
          "Solo el creador o un administrador puede gestionar el plan.")
      else pure ()

def SocialGroupsService.addGroupMembers (env : SocialEnv) (userId groupId : Id)
    (memberIds : List Id) : SocialProg InvitedGroup := do
  match ← query fun s => s.findGroupById groupId with
  | none => throwHttp (NotFoundException "Group not found")
  | some _ =>
      assertGroupAdminAccess userId groupId
      match ← Social.addGroupMembers env { groupId, invitedById := userId, memberIds } with
      | none => throwHttp (NotFoundException "Group not found")
      | some result => announceInvitations userId result

def SocialGroupsService.leaveGroup (userId groupId : Id) : SocialProg GroupWithRelations := do
  match ← query fun s => s.findGroupById groupId with
  | none => throwHttp (NotFoundException "Group not found")
  | some _ =>
      match ← Social.leaveGroup groupId userId with
      | none => throwHttp (NotFoundException "No formas parte de este plan")
      | some .ownerCannotLeave => throwHttp (ForbiddenException none
          "El creador no puede abandonar el plan sin transferir la administracion.")
      | some (.left group) => pure group

end Feca.Social
