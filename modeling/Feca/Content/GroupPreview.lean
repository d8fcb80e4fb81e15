import Feca.Content.FeedPaging
import Feca.Plans.Redaction

/-! # The preview of a group

`SocialGroupsService` answers a group whole to its members and to whoever is
invited. Others see a preview, by the id of a group they may know of or by an
invitation code: without the code, the members and the exact places.
-/

namespace Feca.Content

open Concurrency Concurrency.Prog Relational Social

structure GroupsEnv extends ContentEnv where
  upperCase : String → String

/-! ## Serialization -/

/-- Neither the exact address nor the Google id of the place. -/
def serializePlaceSummaryForPublicGroupViewer (place : PlaceRow) : PlaceSummary where
  address := (orNull (trim place.city)).getD place.name
  googlePlaceId := none
  id := place.id
  name := place.name
  photoUrl := place.coverPhotoUrl

/-- A group, and the columns its event places have beyond those of groups. -/
structure GroupRecord extends GroupWithRelations where
  placeColumns : Id → PlaceColumns

def GroupRecord.placeRow (group : GroupRecord) (place : Place) : PlaceRow :=
  { place, group.placeColumns place.id with }

structure GroupEventView extends EventCapabilities where
  date : String
  id : Id
  myRsvp : Option MyRsvp
  place : PlaceSummary
  proposedBy : UserPublic
  status : GroupEventStatus
  deriving DecidableEq, Repr

structure SerializeGroupOptions where
  publicPreview : Bool := false
  viewerUserId : Option Id := none

/-- The viewer, unless the id is empty. -/
def SerializeGroupOptions.viewer (options : SerializeGroupOptions) : Option Id :=
  options.viewerUserId.bind orNull

def serializeGroupEvent (env : ContentEnv) (group : GroupRecord) (options : SerializeGroupOptions)
    (event : EventWithRelations) : GroupEventView :=
  let place := group.placeRow event.place
  { computeGroupEventCapabilityFlags group.toGroup event.toGroupEvent with
    date := formatDateOnly env event.date
    id := event.id
    myRsvp := options.viewer.map (findMyRsvp event)
    place := if options.publicPreview then serializePlaceSummaryForPublicGroupViewer place
      else serializePlaceSummary place
    proposedBy := serializeUserPublic event.proposedBy
    status := event.status }

inductive GroupMemberStatusView
  | active
  | invited
  | requested
  | declined
  | left
  deriving DecidableEq, Repr

def mapGroupMemberStatus : GroupMemberStatus → GroupMemberStatusView
  | .accepted => .active
  | .pending => .invited
  | .requested => .requested
  | .declined => .declined
  | .left => .left

structure GroupMemberView where
  accepted : Bool
  invitedBy : Option UserPublic
  role : GroupMemberRole
  status : GroupMemberStatusView
  user : UserPublic
  deriving DecidableEq, Repr

def serializeGroupMember (member : MemberWithRelations) : GroupMemberView where
  accepted := member.status == .accepted
  invitedBy := member.invitedBy.map serializeUserPublic
  role := member.role
  status := mapGroupMemberStatus member.status
  user := serializeUserPublic member.user

inductive ViewerMembership
  | active
  | invited
  | requested
  | none
  deriving DecidableEq, Repr

def mapViewerMembership : GroupMemberStatus → ViewerMembership
  | .accepted => .active
  | .pending => .invited
  | .requested => .requested
  | .declined => .none
  | .left => .none

structure GroupView where
  createdBy : UserPublic
  events : List GroupEventView
  id : Id
  inviteCode : Option String
  memberCount : Nat
  memberProposalInteraction : MemberProposalInteraction
  members : List GroupMemberView
  name : String
  placeProposalPolicy : PlaceProposalPolicy
  visibility : GroupVisibility
  viewerMembership : Option ViewerMembership
  deriving DecidableEq, Repr

def serializeGroup (env : ContentEnv) (group : GroupRecord) (options : SerializeGroupOptions) :
    GroupView where
  createdBy := serializeUserPublic group.createdBy
  events := group.events.map (serializeGroupEvent env group options)
  id := group.id
  inviteCode := if options.publicPreview then none else some group.inviteCode
  memberCount := group.acceptedMembers.length
  memberProposalInteraction := group.memberProposalInteraction
  members := if options.publicPreview then [] else group.members.map serializeGroupMember
  name := group.name
  placeProposalPolicy := group.placeProposalPolicy
  visibility := group.visibility
  viewerMembership :=
    if options.publicPreview then some .none
    else (options.viewer.bind group.membershipOf).map fun member =>
      mapViewerMembership member.status

/-! ## The service -/

namespace ContentDb

variable (s : ContentDb)

def groupRecord (group : GroupWithRelations) : GroupRecord :=
  { group with placeColumns := s.placeColumns }

/-- `findUnique` by id, with `groupInclude`. -/
def findGroupRecord (groupId : Id) : Option GroupRecord :=
  (s.findGroupById groupId).map s.groupRecord

/-- `findUnique` by invitation code, with `groupInclude`. -/
def findGroupRecordByInviteCode (inviteCode : String) : Option GroupRecord :=
  (s.findGroupByInviteCode inviteCode).bind fun group => s.findGroupRecord group.id

end ContentDb

def normalizedCode (env : GroupsEnv) (code : String) : String := env.upperCase (trim code)

def getGroupInvitePreview (env : GroupsEnv) (code : String) : ContentProg GroupView := do
  match ← query fun s => s.findGroupRecordByInviteCode (normalizedCode env code) with
  | none => .fail (.http (NotFoundException "Invitation not found"))
  | some group => pure (serializeGroup env.toContentEnv group { publicPreview := true })

/-- An accepted membership, or an invitation. -/
def opensGroup (membership : Option GroupMember) : Bool :=
  membership.any fun membership => membership.status == .accepted || membership.status == .pending

def followsGroup (group : GroupRecord) (followedIds : List Id) : Bool :=
  followedIds.contains group.createdById ||
    group.members.any fun member => member.status == .accepted && followedIds.contains member.userId

def getGroup (env : GroupsEnv) (userId groupId : Id) : ContentProg GroupView := do
  match ← query fun s => s.findGroupRecord groupId with
  | none => .fail (.http (NotFoundException "Group not found"))
  | some group =>
      let membership ← query fun s => s.findMembership groupId userId
      if opensGroup membership then
        pure (serializeGroup env.toContentEnv group { viewerUserId := some userId })
      else if group.visibility = .«private» then
        .fail (.http (NotFoundException "Group not found"))
      else
        let followedIds ← query fun s => s.followedIds userId
        if followsGroup group followedIds then
          pure (serializeGroup env.toContentEnv group
            { publicPreview := true, viewerUserId := some userId })
        else .fail (.http (NotFoundException "Group not found"))

/-! ## Who sees the preview -/

/-- The access decision of `getGroup` is the public preview. -/
structure ContentDb.ServesPreview (s : ContentDb) (viewerId groupId : Id) (group : GroupRecord) :
    Prop where
  outsider : opensGroup (s.findMembership groupId viewerId) = false
  visible : group.visibility ≠ .«private»
  known : followsGroup group (s.followedIds viewerId) = true

variable {env : GroupsEnv} {s : ContentDb} {viewerId groupId : Id} {group : GroupRecord}

theorem getGroup_preview (hgroup : s.findGroupRecord groupId = some group)
    (h : s.ServesPreview viewerId groupId group) : ((getGroup env viewerId groupId).run s).result =
      .ok (serializeGroup env.toContentEnv group
        { publicPreview := true, viewerUserId := some viewerId }) := by
  unfold getGroup
  rw [run_bind_ok (by rw [run_query]), run_query, hgroup]
  dsimp only
  rw [run_bind_ok (by rw [run_query]), run_query, h.outsider]
  dsimp only
  rw [if_neg Bool.false_ne_true, if_neg h.visible, run_bind_ok (by rw [run_query]), run_query,
    if_pos h.known, run_pure]

theorem getGroupInvitePreview_preview {code : String}
    (hgroup : s.findGroupRecordByInviteCode (normalizedCode env code) = some group) :
    ((getGroupInvitePreview env code).run s).result =
      .ok (serializeGroup env.toContentEnv group { publicPreview := true }) := by
  unfold getGroupInvitePreview
  rw [run_bind_ok (by rw [run_query]), run_query, hgroup, run_pure]

/-! ## Versions of a group -/

/-- Two versions of an event that differ in the answers of others than the
viewer, and in what their place has beyond its id, city, name and photo. -/
structure EventVersions (viewerId : Option Id) (e f : EventWithRelations) : Prop where
  event : f.toGroupEvent = e.toGroupEvent
  proposedBy : f.proposedBy = e.proposedBy
  rsvps : ∀ id, viewerId = some id →
    f.rsvps.filter (·.userId == id) = e.rsvps.filter (·.userId == id)
  placeId : f.place.id = e.place.id
  placeCity : f.place.city = e.place.city
  placeName : f.place.name = e.place.name
  placePhoto : f.place.coverPhotoUrl = e.place.coverPhotoUrl

/-- Two versions of a group that differ in the invitation code, in the members,
as many of which have accepted, and in their events as above. The columns that
hold the Google ids of the places may be any. -/
structure GroupVersions (viewerId : Option Id) (g h : GroupRecord) : Prop where
  group : ∃ inviteCode, h.toGroup = { g.toGroup with inviteCode }
  createdBy : h.createdBy = g.createdBy
  acceptedCount : h.acceptedMembers.length = g.acceptedMembers.length
  events : List.Forall₂ (EventVersions viewerId) g.events h.events

section versions

variable {viewer : Option Id} {g h : GroupRecord} {e f : EventWithRelations}
  (env : ContentEnv)

theorem findMyRsvp_versions (hef : EventVersions (some viewerId) e f) :
    findMyRsvp f viewerId = findMyRsvp e viewerId := by
  unfold findMyRsvp
  rw [← List.head?_filter, ← List.head?_filter, hef.rsvps viewerId rfl]

theorem placeSummary_versions (hef : EventVersions viewer e f) :
    serializePlaceSummaryForPublicGroupViewer (h.placeRow f.place) =
      serializePlaceSummaryForPublicGroupViewer (g.placeRow e.place) := by
  unfold serializePlaceSummaryForPublicGroupViewer GroupRecord.placeRow
  dsimp only
  rw [hef.placeId, hef.placeCity, hef.placeName, hef.placePhoto]

/-- What a client may do with an event does not depend on the invitation code. -/
theorem capabilities_versions (hgh : GroupVersions viewer g h) (event : GroupEvent) :
    computeGroupEventCapabilityFlags h.toGroup event =
      computeGroupEventCapabilityFlags g.toGroup event := by
  obtain ⟨inviteCode, hgroup⟩ := hgh.group
  rw [hgroup]
  rfl

theorem serializeGroupEvent_versions (hgh : GroupVersions viewer g h)
    (hef : EventVersions viewer e f) :
    serializeGroupEvent env h { publicPreview := true, viewerUserId := viewer } f =
      serializeGroupEvent env g { publicPreview := true, viewerUserId := viewer } e := by
  have hrsvp : ((viewer.bind orNull).map (findMyRsvp f)) =
      (viewer.bind orNull).map (findMyRsvp e) := by
    cases viewer with
    | none => rfl
    | some id =>
        by_cases hempty : id = ""
        · rw [hempty]
          rfl
        · have hid : (some id).bind orNull = some id := if_neg hempty
          rw [hid, Option.map_some, Option.map_some, findMyRsvp_versions hef]
  have hplace := placeSummary_versions (g := g) (h := h) hef
  unfold serializeGroupEvent SerializeGroupOptions.viewer
  dsimp only
  rw [hef.event, capabilities_versions hgh, hrsvp, hplace, hef.proposedBy]
  rfl

/-- The preview of both versions is the same. -/
theorem serializeGroup_versions (hgh : GroupVersions viewer g h) :
    serializeGroup env h { publicPreview := true, viewerUserId := viewer } =
      serializeGroup env g { publicPreview := true, viewerUserId := viewer } := by
  have hevents : h.events.map
      (serializeGroupEvent env h { publicPreview := true, viewerUserId := viewer }) =
        g.events.map
          (serializeGroupEvent env g { publicPreview := true, viewerUserId := viewer }) := by
    have hpairs : ∀ {es fs : List EventWithRelations},
        List.Forall₂ (EventVersions viewer) es fs →
        fs.map (serializeGroupEvent env h { publicPreview := true, viewerUserId := viewer }) =
          es.map (serializeGroupEvent env g { publicPreview := true, viewerUserId := viewer }) := by
      intro es fs hes
      induction hes with
      | nil => rfl
      | cons hef _ ih =>
          rw [List.map_cons, List.map_cons, ih, serializeGroupEvent_versions env hgh hef]
    exact hpairs hgh.events
  obtain ⟨inviteCode, hgroup⟩ := hgh.group
  unfold serializeGroup
  rw [hevents, hgh.createdBy, hgh.acceptedCount, hgroup]
  rfl

end versions

/-- The preview tells two versions of a group apart for nobody: neither for an
outsider who looks it up by its id, nor for whoever has an invitation code. -/
theorem group_preview_hides (env : GroupsEnv) (s t : ContentDb) :
    (∀ viewerId groupId g h, s.findGroupRecord groupId = some g →
      t.findGroupRecord groupId = some h → GroupVersions (some viewerId) g h →
      s.ServesPreview viewerId groupId g → t.ServesPreview viewerId groupId h →
      ((getGroup env viewerId groupId).run t).result =
        ((getGroup env viewerId groupId).run s).result) ∧
    ∀ code code' g h, s.findGroupRecordByInviteCode (normalizedCode env code) = some g →
      t.findGroupRecordByInviteCode (normalizedCode env code') = some h → GroupVersions none g h →
      ((getGroupInvitePreview env code').run t).result =
        ((getGroupInvitePreview env code).run s).result := by
  constructor
  · intro viewerId groupId g h hg hh hgh hs ht
    rw [getGroup_preview hg hs, getGroup_preview hh ht, serializeGroup_versions _ hgh]
  · intro code code' g h hg hh hgh
    rw [getGroupInvitePreview_preview hg, getGroupInvitePreview_preview hh,
      serializeGroup_versions _ hgh]

/-! ## Two versions of a group -/

/-- Ana, whom beto follows, plans to meet at the café. -/
def anasGroup (inviteCode : String) (place : Place) : SocialDb :=
  let base : SocialDb := .ofUsers anaBetoAndCaro .empty
    (.singleton { id := "f1", followerId := "beto", followedId := "ana" }) .empty
    (.singleton place)
  ((createPlan (anEnv "g1" ["m1"])
    { aPublicPlan inviteCode 10 with joinPolicy := some .requestApproval }).run base).store

/-- Caro asks to join, and Ana is going. -/
def answered (s : SocialDb) : SocialDb :=
  let asked := ((joinPlan (anEnv "g1" ["m2"]) "g1" "caro").run s).store
  ((upsertRsvp { id := "r1", eventId := "g1", userId := "ana", rsvp := .going,
                 createdAt := 0 }).run asked).store

def onSanMartin : Place := cafe "San Martín 100" 32947

def onMitre : Place := cafe "Mitre 5" 32948

def anasStore : ContentDb :=
  .ofSocial (anasGroup "AAAAAA" onSanMartin) { sourcePlaceId := some "ChIJ1" } (by decide)
    (by decide +kernel)

def answeredStore : ContentDb :=
  .ofSocial (answered (anasGroup "BBBBBB" onMitre)) { sourcePlaceId := some "ChIJ2" }
    (by decide +kernel) (by decide +kernel)

def aGroupsEnv : GroupsEnv := { aContentEnv with upperCase := id }

def anasRecord : GroupWithRelations :=
  aPlanWith (anEventAt onSanMartin []) [aMember "m1" "ana" .owner .accepted]

def answeredRecord : GroupWithRelations :=
  { aPlanWith (anEventAt onMitre
      [{ id := "r1", eventId := "g1", userId := "ana", rsvp := .going, createdAt := 0 }])
      [aMember "m1" "ana" .owner .accepted, aMember "m2" "caro" .member .requested] with
    inviteCode := "BBBBBB" }

/-- Beto learns neither the street nor the code, nor who asked to join or is
going; nor does whoever has a code. -/
theorem beto_sees_one_group :
    ((getGroup aGroupsEnv "beto" "g1").run answeredStore).result =
      ((getGroup aGroupsEnv "beto" "g1").run anasStore).result ∧
    ((getGroupInvitePreview aGroupsEnv "BBBBBB").run answeredStore).result =
      ((getGroupInvitePreview aGroupsEnv " AAAAAA ").run anasStore).result := by
  have hplain : anasStore.findGroupById "g1" = some anasRecord := by decide +kernel
  have hanswered : answeredStore.findGroupById "g1" = some answeredRecord := by decide +kernel
  have hplainCode : anasStore.findGroupByInviteCode (normalizedCode aGroupsEnv " AAAAAA ") =
      some anasRecord.toGroup := by decide
  have hansweredCode : answeredStore.findGroupByInviteCode (normalizedCode aGroupsEnv "BBBBBB") =
      some answeredRecord.toGroup := by decide
  have hversions : ∀ viewer : Option Id, viewer ≠ some "ana" → GroupVersions viewer
      (anasStore.groupRecord anasRecord) (answeredStore.groupRecord answeredRecord) := by
    intro viewer hviewer
    refine ⟨⟨"BBBBBB", rfl⟩, rfl, by decide, .cons ⟨rfl, rfl, ?_, rfl, rfl, rfl, rfl⟩ .nil⟩
    intro id hid
    have hana : "ana" ≠ id := fun h => hviewer (h ▸ hid)
    simp [anEventAt, hana]
  have hplainRecord : anasStore.findGroupRecord "g1" = some (anasStore.groupRecord anasRecord) := by
    rw [ContentDb.findGroupRecord, hplain, Option.map_some]
  have hansweredRecord : answeredStore.findGroupRecord "g1" =
      some (answeredStore.groupRecord answeredRecord) := by
    rw [ContentDb.findGroupRecord, hanswered, Option.map_some]
  have hhides := group_preview_hides aGroupsEnv anasStore answeredStore
  constructor
  · exact hhides.1 "beto" "g1" _ _ hplainRecord hansweredRecord (hversions _ (by decide))
      ⟨by decide, by decide, by decide⟩
      ⟨by decide, by decide, by decide⟩
  · refine hhides.2 _ _ _ _ ?_ ?_ (hversions none (by decide))
    · rw [ContentDb.findGroupRecordByInviteCode, hplainCode]
      exact hplainRecord
    · rw [ContentDb.findGroupRecordByInviteCode, hansweredCode]
      exact hansweredRecord

end Feca.Content
