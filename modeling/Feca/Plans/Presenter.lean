import Feca.Plans.Repository

/-! # What a viewer is shown of a plan

`serializePlan` has two levels: an approved participant sees the exact place,
their answer and the whole roster; everybody else a rounded position, the name
of the area and three members. Times are shown in full, so a view keeps the
time itself.
-/

namespace Feca.Social

open Relational

structure UserPublic where
  avatarUrl : Option String
  bio : Option String
  city : Option String
  displayName : String
  id : Id
  lat : Option Rat
  lng : Option Rat
  username : String
  deriving DecidableEq, Repr

def serializeUserPublic (user : User) : UserPublic where
  avatarUrl := user.avatarUrl
  bio := user.bio
  city := user.city
  displayName := user.displayName
  id := user.id
  lat := user.lat
  lng := user.lng
  username := user.username

structure PlanPlaceView where
  address : Option String
  areaLabel : Option String
  id : Id
  mapLat : Option Rat
  mapLng : Option Rat
  name : String
  photoUrl : Option String
  deriving DecidableEq, Repr

/-- `myRsvp`: an answer, or `"none"`. -/
inductive MyRsvp
  | answered (rsvp : GroupEventRsvpStatus)
  | unanswered
  deriving DecidableEq, Repr

structure NextEventView where
  allowsRsvp : Bool
  date : Date
  id : Id
  myRsvp : Option MyRsvp
  place : PlanPlaceView
  status : GroupEventStatus
  deriving DecidableEq, Repr

inductive ParticipationState
  | approved
  | requested
  | rejected
  | left
  | none
  deriving DecidableEq, Repr

structure PlanView where
  createdBy : UserPublic
  description : Option String
  friendParticipant : Option UserPublic
  id : Id
  isAdmin : Bool
  isOwner : Bool
  joinPolicy : GroupJoinPolicy
  memberCount : Nat
  memberPreview : List UserPublic
  name : String
  nextEvent : Option NextEventView
  participationState : ParticipationState
  visibility : GroupVisibility
  deriving DecidableEq, Repr

def mapParticipationState : Option GroupMemberStatus → ParticipationState
  | some .accepted => .approved
  | some .requested => .requested
  | some .declined => .rejected
  | some .left => .left
  | _ => .none

/-! ## Rounded positions

A coordinate is a double, kept as the rational it stands for. JavaScript multiplies
and divides exactly and rounds the outcome to the nearest double. Degrees are far
below the largest one, so no exponent is too large.
-/

def powerOfTwo (exponent : Int) : Rat :=
  if 0 ≤ exponent then (2 ^ exponent.toNat : Nat) else mkRat 1 (2 ^ (-exponent).toNat)

/-- The exponent of the largest power of two that the magnitude of `x` reaches. -/
def binaryExponent (x : Rat) : Int :=
  let exponent : Int := x.num.natAbs.log2 - x.den.log2
  if powerOfTwo exponent ≤ x ∨ x ≤ -powerOfTwo exponent then exponent else exponent - 1

/-- The nearest integer, the even one of two that are equally near. -/
def roundHalfEven (x : Rat) : Int :=
  let below := x.floor
  if x - below < 1 / 2 ∨ x - below = 1 / 2 ∧ below % 2 = 0 then below else below + 1

/-- The nearest double: 53 significant bits, none of them below `2 ^ -1074`. -/
def toDouble (x : Rat) : Rat :=
  let unit := powerOfTwo (max (binaryExponent x - 52) (-1074))
  roundHalfEven (x / unit) * unit

/-- `Math.round`: the nearest integer, the greater one of two. -/
def mathRound (x : Rat) : Int := (x + 1 / 2).floor

/-- `Math.round(value * 100) / 100`. -/
def roundApproximateCoordinate (value : Option Rat) : Option Rat :=
  value.map fun v => toDouble (mathRound (toDouble (v * 100)) / 100)

-- The hundredfold of -34.905 is rounded to a half, and the half upwards.
example : roundApproximateCoordinate (some (toDouble (mkRat (-34905) 1000))) =
    some (toDouble (mkRat (-3490) 100)) := by decide +kernel

example : roundApproximateCoordinate (some (toDouble (mkRat (-34906) 1000))) =
    some (toDouble (mkRat (-3491) 100)) := by decide +kernel

/-- Neither over nor called off. -/
def GroupEvent.isUpcoming (event : GroupEvent) (now : Date) : Bool :=
  event.date ≥ now && event.status != .cancelled && event.status != .completed

def nextEvent (now : Date) (plan : GroupWithRelations) : Option EventWithRelations :=
  plan.events.find? fun event => event.toGroupEvent.isUpcoming now

def serializePlace (place : Place) (approved : Bool) : PlanPlaceView :=
  let areaLabel := orNull (trim place.city)
  { address := if approved then some place.address else areaLabel
    areaLabel := areaLabel
    id := place.id
    mapLat := if approved then place.lat else roundApproximateCoordinate place.lat
    mapLng := if approved then place.lng else roundApproximateCoordinate place.lng
    name := place.name
    photoUrl := place.coverPhotoUrl }

def findMyRsvp (event : EventWithRelations) (viewerId : Id) : MyRsvp :=
  match event.rsvps.find? (·.userId == viewerId) with
  | some rsvp => .answered rsvp.rsvp
  | none => .unanswered

def serializeNextEvent (event : EventWithRelations) (approved : Bool) (viewerId : Id) :
    NextEventView where
  allowsRsvp := approved && (event.status == .proposed || event.status == .confirmed)
  date := event.date
  id := event.id
  myRsvp := if approved then some (findMyRsvp event viewerId) else none
  place := serializePlace event.place approved
  status := event.status

namespace GroupWithRelations

def acceptedMembers (plan : GroupWithRelations) : List MemberWithRelations :=
  plan.members.filter (·.status == .accepted)

def membershipOf (plan : GroupWithRelations) (userId : Id) : Option MemberWithRelations :=
  plan.members.find? (·.userId == userId)

end GroupWithRelations

/-- The members of a plan are the memberships stored for it. -/
theorem SocialDb.mem_members {s : SocialDb} {id : Id} {plan : GroupWithRelations}
    (h : s.findPlanById id = some plan) {m : MemberWithRelations} :
    m ∈ plan.members ↔ ∃ row ∈ s.members.rows, row.groupId = id ∧
      s.memberWithRelations row = some m := by
  obtain ⟨g, hg, hrel⟩ := Option.bind_eq_some_iff.mp h
  obtain ⟨u, -, rfl⟩ := Option.map_eq_some_iff.mp hrel
  have hid := (SocialDb.findGroup_some hg).2
  simp [List.mem_filterMap, List.mem_insertionSort, hid, and_assoc]

/-- The membership a plan was read with is the stored one. -/
theorem SocialDb.findMembership_eq {s : SocialDb} {id : Id} {plan : GroupWithRelations}
    (h : s.findPlanById id = some plan) (userId : Id) :
    s.findMembership id userId = (plan.membershipOf userId).map (·.toGroupMember) := by
  cases hfind : plan.membershipOf userId with
  | some m =>
      have huser : m.userId = userId := by simpa using List.find?_some hfind
      obtain ⟨row, hrow, hgroup, hrel⟩ := (SocialDb.mem_members h).mp (List.mem_of_find?_eq_some hfind)
      obtain ⟨u, -, rfl⟩ := Option.map_eq_some_iff.mp hrel
      have hstored := SocialDb.findMembership_of_mem hrow
      rw [hgroup, show row.userId = userId from huser] at hstored
      exact hstored
  | none =>
      cases hmember : s.findMembership id userId with
      | none => rfl
      | some row =>
          obtain ⟨hrow, hgroup, huser⟩ := SocialDb.findMembership_some hmember
          obtain ⟨m, hm⟩ := Option.isSome_iff_exists.mp (SocialDb.memberWithRelations_isSome hrow)
          have hnone := List.find?_eq_none.mp hfind m ((SocialDb.mem_members h).mpr ⟨row, hrow, hgroup, hm⟩)
          obtain ⟨u, -, rfl⟩ := Option.map_eq_some_iff.mp hm
          simp [huser] at hnone

def isAdminRole (role : Option GroupMemberRole) : Bool :=
  role == some .owner || role == some .admin

/-- The viewer's friend among the accepted members, if there is one. -/
def findFriend (plan : GroupWithRelations) (viewerId : Id) (followedIds : List Id) :
    Option MemberWithRelations :=
  plan.acceptedMembers.find? fun member =>
    member.userId != viewerId && followedIds.contains member.userId

def serializePlan (plan : GroupWithRelations) (viewerId : Id) (followedIds : List Id)
    (approved : Bool) (selectedEvent : Option EventWithRelations) : PlanView :=
  let acceptedMembers := plan.acceptedMembers
  let membership := plan.membershipOf viewerId
  { createdBy := serializeUserPublic plan.createdBy
    description := plan.description
    friendParticipant :=
      (findFriend plan viewerId followedIds).map fun friend => serializeUserPublic friend.user
    id := plan.id
    isAdmin := isAdminRole (membership.map (·.role))
    isOwner := plan.createdById == viewerId || (membership.map (·.role)) == some .owner
    joinPolicy := plan.joinPolicy
    memberCount := acceptedMembers.length
    memberPreview := (if approved then acceptedMembers else acceptedMembers.take 3).map
      fun member => serializeUserPublic member.user
    name := plan.name
    nextEvent := selectedEvent.map fun event => serializeNextEvent event approved viewerId
    participationState := mapParticipationState (membership.map (·.status))
    visibility := plan.visibility }

/-! ## Disguises -/

/-- Two versions of an event that look the same from outside: only the answers,
the exact address and the digits of the position below a hundredth of a degree
may differ. -/
structure EventDisguised (e f : EventWithRelations) : Prop where
  event : f.toGroupEvent = e.toGroupEvent
  proposedBy : f.proposedBy = e.proposedBy
  place : ∃ address lat lng, f.place = { e.place with address, lat, lng }
  lat : roundApproximateCoordinate f.place.lat = roundApproximateCoordinate e.place.lat
  lng : roundApproximateCoordinate f.place.lng = roundApproximateCoordinate e.place.lng

/-- Two versions of a plan that look the same to a viewer who is no accepted
member: beyond disguised events, other users' memberships that are not accepted
may differ, and so may the accepted members after the first three, whom the
viewer follows in neither version. -/
structure Disguised (followedIds : List Id) (viewerId : Id) (p q : GroupWithRelations) :
    Prop where
  group : q.toGroup = p.toGroup
  createdBy : q.createdBy = p.createdBy
  events : List.Forall₂ EventDisguised p.events q.events
  viewer : q.members.filter (·.userId == viewerId) = p.members.filter (·.userId == viewerId)
  outsider : ∀ m ∈ p.members, m.userId = viewerId → m.status ≠ .accepted
  preview : q.acceptedMembers.take 3 = p.acceptedMembers.take 3
  count : q.acceptedMembers.length = p.acceptedMembers.length
  strangers : ∀ m ∈ p.acceptedMembers.drop 3, m.userId ∉ followedIds
  strangers' : ∀ m ∈ q.acceptedMembers.drop 3, m.userId ∉ followedIds

theorem EventDisguised.refl (e : EventWithRelations) : EventDisguised e e :=
  ⟨rfl, rfl, ⟨e.place.address, e.place.lat, e.place.lng, rfl⟩, rfl, rfl⟩

theorem serializePlace_disguised {e f : EventWithRelations} (h : EventDisguised e f) :
    serializePlace f.place false = serializePlace e.place false := by
  obtain ⟨address, lat, lng, hplace⟩ := h.place
  have hlat := h.lat
  have hlng := h.lng
  rw [hplace] at hlat hlng
  simp only [serializePlace, hplace, Bool.false_eq_true, if_false]
  rw [hlat, hlng]

theorem serializeNextEvent_disguised {e f : EventWithRelations} (h : EventDisguised e f)
    (viewerId : Id) : serializeNextEvent f false viewerId = serializeNextEvent e false viewerId := by
  unfold serializeNextEvent
  rw [h.event, serializePlace_disguised h]
  rfl

/-- Nobody after the first three is a friend. -/
theorem findFriend_eq {p : GroupWithRelations} {viewerId : Id} {followedIds : List Id}
    (h : ∀ m ∈ p.acceptedMembers.drop 3, m.userId ∉ followedIds) :
    findFriend p viewerId followedIds = (p.acceptedMembers.take 3).find? fun member =>
      member.userId != viewerId && followedIds.contains member.userId := by
  unfold findFriend
  have hnone : (p.acceptedMembers.drop 3).find? (fun member =>
      member.userId != viewerId && followedIds.contains member.userId) = none := by
    rw [List.find?_eq_none]
    intro m hm
    simp [h m hm]
  conv_lhs => rw [← List.take_append_drop 3 p.acceptedMembers]
  rw [List.find?_append, hnone, Option.or_none]

theorem membershipOf_eq {p q : GroupWithRelations} {userId : Id}
    (h : q.members.filter (·.userId == userId) = p.members.filter (·.userId == userId)) :
    q.membershipOf userId = p.membershipOf userId := by
  unfold GroupWithRelations.membershipOf
  rw [← List.head?_filter, ← List.head?_filter, h]

/-- Redaction: the view of an outsider is the same for both versions. -/
theorem serializePlan_disguised {p q : GroupWithRelations} {viewerId : Id} {followedIds : List Id}
    (h : Disguised followedIds viewerId p q) {e f : Option EventWithRelations}
    (hevent : Option.Rel EventDisguised e f) :
    serializePlan q viewerId followedIds false f = serializePlan p viewerId followedIds false e := by
  have hnext : f.map (fun event => serializeNextEvent event false viewerId) =
      e.map fun event => serializeNextEvent event false viewerId := by
    cases hevent with
    | none => rfl
    | some hdisguised =>
        exact congrArg some (serializeNextEvent_disguised hdisguised viewerId)
  have hfriend : findFriend q viewerId followedIds = findFriend p viewerId followedIds := by
    rw [findFriend_eq h.strangers, findFriend_eq h.strangers', h.preview]
  unfold serializePlan
  dsimp only
  rw [hnext, hfriend, membershipOf_eq h.viewer, h.createdBy, h.count, h.group]
  simp only [Bool.false_eq_true, if_false, h.preview]

end Feca.Social
