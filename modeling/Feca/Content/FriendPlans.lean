import Feca.Collections.Comparators
import Feca.Collections.Window
import Feca.Content.GroupPreview
import Feca.Content.Rotation
import Feca.Reminders.Clock

/-! # The plans of friends

A viewer is shown the public groups of those they follow, by the date of what is
next in them. `listPublicFriendGroupPlans` reads all of them for every page and
cuts the page out of what it has sorted. The database may answer in another order
each time: what it is asked to order are the dates of events.
-/

namespace Feca.Content

open Collections Concurrency Concurrency.Prog Paging Reminders Social

/-! ## Reading -/

/-- An order the database may answer in. -/
structure ReadOrder where
  groups : List Group → List Group
  events : List GroupEvent → List GroupEvent
  members : List GroupMember → List GroupMember
  groups_perm : ∀ rows, (groups rows).Perm rows
  events_perm : ∀ rows, (events rows).Perm rows
  members_perm : ∀ rows, (members rows).Perm rows

structure EventWithPlace extends GroupEvent where
  place : Place
  deriving DecidableEq, Repr

structure MemberWithUser extends GroupMember where
  user : User
  deriving DecidableEq, Repr

structure PublicFriendGroupPlanRow extends Group where
  createdBy : User
  events : List EventWithPlace
  members : List MemberWithUser
  deriving DecidableEq, Repr

/-- Events of one date stand in any order. -/
def earlierEvent (a b : GroupEvent) : Prop := a.date ≤ b.date

instance : DecidableRel earlierEvent := fun a b => by
  unfold earlierEvent
  infer_instance

namespace ContentDb

variable (s : ContentDb)

def eventWithPlace (event : GroupEvent) : Option EventWithPlace :=
  (s.places.rows.find? (·.id == event.placeId)).map fun place => { event with place }

def memberWithUser (member : GroupMember) : Option MemberWithUser :=
  (s.findUser member.userId).map fun user => { member with user }

def eventsOf (group : Group) : List GroupEvent := s.events.rows.filter (·.groupId == group.id)

def acceptedOf (group : Group) : List GroupMember :=
  s.members.rows.filter fun m => m.groupId == group.id && m.status == .accepted

/-- `findMany`, with what the query includes. -/
def publicFriendGroupPlanRow (order : ReadOrder) (group : Group) :
    Option PublicFriendGroupPlanRow :=
  (s.findUser group.createdById).map fun createdBy =>
    { group with
      createdBy
      events := ((order.events (s.eventsOf group)).insertionSort earlierEvent).filterMap
        s.eventWithPlace
      members := (order.members (s.acceptedOf group)).filterMap s.memberWithUser }

/-- `whereFixed`. -/
def isPlanCandidate (excludeMember : Bool) (viewerId : Id) (followingIds : List Id)
    (group : Group) : Bool :=
  group.visibility == .publicFollowers &&
    (s.acceptedOf group).any (fun m => followingIds.contains m.userId) &&
    !(excludeMember && s.members.rows.any fun m => m.groupId == group.id &&
      m.userId == viewerId && (m.status == .accepted || m.status == .pending))

def planCandidates (excludeMember : Bool) (viewerId : Id) (followingIds : List Id) : List Group :=
  s.groups.rows.filter (s.isPlanCandidate excludeMember viewerId followingIds)

end ContentDb

structure PlanCandidates where
  groups : List PublicFriendGroupPlanRow
  total : Nat

def listPublicFriendGroupPlanCandidates (order : ReadOrder) (excludeMember : Bool)
    (viewerId : Id) : ContentProg PlanCandidates := do
  let followingIds ← query fun s => s.followedIds viewerId
  if followingIds.length = 0 then pure ⟨[], 0⟩
  else
    let total ← query fun s => (s.planCandidates excludeMember viewerId followingIds).length
    let groups ← query fun s =>
      (order.groups (s.planCandidates excludeMember viewerId followingIds)).filterMap
        (s.publicFriendGroupPlanRow order)
    pure ⟨groups, total⟩

/-! ## The next event -/

def futureNonCompleted (startOfToday : Date) (events : List EventWithPlace) :
    List EventWithPlace :=
  events.filter fun event => decide (startOfToday ≤ event.date) && event.status != .completed

def byDate (a b : EventWithPlace) : Prop := a.date ≤ b.date

instance : DecidableRel byDate := fun a b => by
  unfold byDate
  infer_instance

def isConfirmed (status : GroupEventStatus) : Bool := status == .confirmed

def isProposedLike (status : GroupEventStatus) : Bool :=
  status == .proposed || status == .announcement

/-- The earliest one that is confirmed, and else the earliest proposal. -/
def nextEventFrom (startOfToday : Date) (events : List EventWithPlace) : Option EventWithPlace :=
  let future := futureNonCompleted startOfToday events
  ((future.filter fun event => isConfirmed event.status).insertionSort byDate).head?.or
    ((future.filter fun event => isProposedLike event.status).insertionSort byDate).head?

def pickNextEventForPublicFriendList (now : Date) (events : List EventWithPlace) :
    Option EventWithPlace :=
  nextEventFrom (startOfUtcDay now) events

/-! ## Sorting -/

/-- What a group is sorted by. -/
structure PlanKey where
  sortKey : Option Date
  name : String
  id : Id
  deriving DecidableEq, Repr

structure DecoratedPlan where
  group : PublicFriendGroupPlanRow
  next : Option EventWithPlace

def DecoratedPlan.key (plan : DecoratedPlan) : PlanKey where
  sortKey := plan.next.map (·.date)
  name := plan.group.name
  id := plan.group.id

/-- By name and then by id. -/
def comparePlanNames (env : ContentEnv) (left right : PlanKey) : Int :=
  if env.localeCompare left.name right.name ≠ 0 then env.localeCompare left.name right.name
  else env.localeCompare left.id right.id

def comparePlans (env : ContentEnv) (left right : PlanKey) : Int :=
  match left.sortKey, right.sortKey with
  | none, none => comparePlanNames env left right
  | none, some _ => 1
  | some _, none => -1
  | some l, some r => if l ≠ r then l - r else comparePlanNames env left right

def planBefore (env : ContentEnv) (left right : PlanKey) : Prop := comparePlans env left right ≤ 0

instance (env : ContentEnv) : DecidableRel (planBefore env) := fun a b => by
  unfold planBefore
  infer_instance

/-! ## The view -/

inductive FriendPlanStatus
  | proposed
  | confirmed
  | completed
  deriving DecidableEq, Repr

def nextStatusForApi : GroupEventStatus → FriendPlanStatus
  | .announcement => .proposed
  | .proposed => .proposed
  | .confirmed => .confirmed
  | .completed => .completed
  | .cancelled => .proposed

structure FriendPlanEventView where
  areaLabel : Option String
  date : String
  placeName : String
  status : FriendPlanStatus
  deriving DecidableEq, Repr

structure PublicFriendGroupPlanView where
  createdBy : UserPublic
  friendParticipant : Option UserPublic
  id : Id
  memberCount : Nat
  name : String
  nextEvent : Option FriendPlanEventView
  deriving DecidableEq, Repr

def byUserId (env : ContentEnv) (a b : MemberWithUser) : Prop :=
  env.localeCompare a.userId b.userId ≤ 0

instance (env : ContentEnv) : DecidableRel (byUserId env) := fun a b => by
  unfold byUserId
  infer_instance

def pickFriendParticipant (env : ContentEnv) (members : List MemberWithUser)
    (followedMemberIds : List Id) (viewerId : Id) : Option User :=
  ((members.filter fun member => member.status == .accepted && member.userId != viewerId &&
    followedMemberIds.contains member.userId).insertionSort (byUserId env)).head?.map (·.user)

def friendPlanEvent (env : ContentEnv) (next : EventWithPlace) : FriendPlanEventView where
  areaLabel := orNull (trim next.place.city)
  date := formatDateOnly env next.date
  placeName := trim next.place.name
  status := nextStatusForApi next.status

def serializePublicFriendGroupPlan (env : ContentEnv) (group : PublicFriendGroupPlanRow)
    (followedMemberIds : List Id) (nextEvent : Option EventWithPlace) (viewerId : Id) :
    PublicFriendGroupPlanView where
  createdBy := serializeUserPublic group.createdBy
  friendParticipant :=
    (pickFriendParticipant env group.members followedMemberIds viewerId).map serializeUserPublic
  id := group.id
  memberCount := (group.members.filter (·.status == .accepted)).length
  name := group.name
  nextEvent := nextEvent.map (friendPlanEvent env)

/-! ## The service -/

/-- What a request meets: the order of the database, and the clock as it is read
for one group after the other. -/
structure PlansRequest where
  order : ReadOrder
  now : Nat → Date

/-- Every group with its next event. -/
def decoratePlans (now : Nat → Date) (groups : List PublicFriendGroupPlanRow) :
    List DecoratedPlan :=
  groups.zipIdx.map fun (group, i) => ⟨group, pickNextEventForPublicFriendList (now i) group.events⟩

structure FriendPlansAnswer where
  plans : List PublicFriendGroupPlanView
  total : Nat
  deriving DecidableEq, Repr

def listPublicFriendGroupPlans (env : ContentEnv) (request : PlansRequest) (userId : Id)
    (offset limit : Nat) : ContentProg FriendPlansAnswer := do
  let found ← listPublicFriendGroupPlanCandidates request.order true userId
  let followedIds ← query fun s => s.followedIds userId
  let decorated := (decoratePlans request.now found.groups).insertionSort fun left right =>
    planBefore env left.key right.key
  let page := (decorated.drop offset).take limit
  pure ⟨page.map fun row =>
    serializePublicFriendGroupPlan env row.group followedIds row.next userId, found.total⟩

/-- The pages of a client that asks on from as many plans as it has been shown,
as long as there are more. What a request meets depends on its offset. -/
def friendPlansPages (env : ContentEnv) (requests : Nat → PlansRequest) (userId : Id)
    (limit : Nat) (s : ContentDb) (fuel : Nat) : List (Page Nat PublicFriendGroupPlanView) :=
  walk (fun _ cursor =>
    let offset := cursor.getD 0
    ((listPublicFriendGroupPlans env (requests offset) userId offset limit).run s).result.map
      fun answer => ⟨answer.plans, if offset + answer.plans.length < answer.total then
        some (offset + answer.plans.length) else none⟩) fuel 0 none

/-! ## What a plan is to tell -/

/-- A collation that tells the ids of groups apart. -/
structure SortsGroups (env : ContentEnv) (s : ContentDb) : Prop where
  compares : Compares env.localeCompare
  apart : ∀ g ∈ s.groups.rows, ∀ h ∈ s.groups.rows, env.localeCompare g.id h.id = 0 → g.id = h.id

namespace ContentDb

variable (s : ContentDb)

/-- The groups a viewer is to be shown. -/
def friendPlans (viewerId : Id) : List Group :=
  s.planCandidates true viewerId (s.followedIds viewerId)

def openDates (today : Date) (kind : GroupEventStatus → Bool) (group : Group) : List Date :=
  ((s.eventsOf group).filter fun event => decide (today ≤ event.date) && kind event.status).map
    (·.date)

/-- The date of what is confirmed, and else of what is proposed. -/
def nextDate (today : Date) (group : Group) : Option Date :=
  (s.openDates today isConfirmed group).min?.or (s.openDates today isProposedLike group).min?

def planKey (today : Date) (group : Group) : PlanKey := ⟨s.nextDate today group, group.name, group.id⟩

end ContentDb

/-- An event is shown as what is next in a group. -/
structure ShowsNext (env : ContentEnv) (s : ContentDb) (today : Date) (group : Group)
    (view : FriendPlanEventView) (event : GroupEvent) : Prop where
  stored : event ∈ s.eventsOf group
  next : s.nextDate today group = some event.date
  date : view.date = formatDateOnly env event.date
  kind : (isConfirmed event.status = true ∧ view.status = .confirmed) ∨
    (isProposedLike event.status = true ∧ view.status = .proposed ∧
      s.openDates today isConfirmed group = [])
  place : ∃ place ∈ s.places.rows, place.id = event.placeId ∧ view.placeName = trim place.name ∧
    view.areaLabel = orNull (trim place.city)

/-- What a plan tells of its group. -/
structure TellsPlan (env : ContentEnv) (s : ContentDb) (viewerId : Id) (today : Date)
    (group : Group) (plan : PublicFriendGroupPlanView) : Prop where
  id : plan.id = group.id
  name : plan.name = group.name
  createdBy : ∃ user ∈ s.users.rows, user.id = group.createdById ∧
    plan.createdBy = serializeUserPublic user
  memberCount : plan.memberCount = (s.acceptedOf group).length
  friend : ∃ member ∈ s.acceptedOf group, member.userId ∈ s.followedIds viewerId ∧
    member.userId ≠ viewerId ∧ ∃ user ∈ s.users.rows, user.id = member.userId ∧
      plan.friendParticipant = some (serializeUserPublic user)
  unplanned : plan.nextEvent = none ↔ s.nextDate today group = none
  planned : ∀ view ∈ plan.nextEvent, ∃ event, ShowsNext env s today group view event

/-! ## Rows -/

/-- A row has what is stored of its group, in some order. -/
structure RowOf (s : ContentDb) (group : Group) (row : PublicFriendGroupPlanRow) : Prop where
  base : row.toGroup = group
  createdBy : row.createdBy ∈ s.users.rows ∧ row.createdBy.id = group.createdById
  events : (row.events.map (·.toGroupEvent)).Perm (s.eventsOf group)
  places : ∀ event ∈ row.events, event.place ∈ s.places.rows ∧ event.place.id = event.placeId
  members : (row.members.map (·.toGroupMember)).Perm (s.acceptedOf group)
  users : ∀ member ∈ row.members, member.user ∈ s.users.rows ∧ member.user.id = member.userId

section rows

variable {s : ContentDb} {group : Group} {row : PublicFriendGroupPlanRow} {order : ReadOrder}

theorem findUser_spec {id : Id} {user : User} (h : s.findUser id = some user) :
    user ∈ s.users.rows ∧ user.id = id :=
  ⟨List.mem_of_find?_eq_some h, by simpa using List.find?_some h⟩

theorem exists_findUser {id : Id} (h : ∃ user ∈ s.users.rows, user.id = id) :
    ∃ user, s.findUser id = some user := by
  obtain ⟨user, huser, hid⟩ := h
  exact Option.isSome_iff_exists.mp (List.find?_isSome.mpr ⟨user, huser, by simpa using hid⟩)

theorem exists_eventWithPlace {event : GroupEvent} (h : event ∈ s.events.rows) :
    ∃ joined, s.eventWithPlace event = some joined ∧ joined.toGroupEvent = event := by
  obtain ⟨place, hplace, hid⟩ := s.event_place event h
  obtain ⟨found, hfound⟩ := Option.isSome_iff_exists.mp (List.find?_isSome (p := (·.id == event.placeId))
    |>.mpr ⟨place, hplace, by simpa using hid⟩)
  exact ⟨{ event with place := found }, by simp [ContentDb.eventWithPlace, hfound], rfl⟩

theorem exists_memberWithUser {member : GroupMember} (h : member ∈ s.members.rows) :
    ∃ joined, s.memberWithUser member = some joined ∧ joined.toGroupMember = member := by
  obtain ⟨user, huser⟩ := exists_findUser (s.member_user member h)
  exact ⟨{ member with user }, by simp [ContentDb.memberWithUser, huser], rfl⟩

theorem rowOf_of_row (h : s.publicFriendGroupPlanRow order group = some row) :
    RowOf s group row := by
  obtain ⟨createdBy, hcreator, rfl⟩ := Option.map_eq_some_iff.mp h
  have hevents := (List.perm_insertionSort earlierEvent (order.events (s.eventsOf group))).trans
    (order.events_perm _)
  have hmembers := order.members_perm (s.acceptedOf group)
  refine ⟨rfl, findUser_spec hcreator, ?_, fun event hevent => ?_, ?_, fun member hmember => ?_⟩
  · rw [map_filterMap_of_join fun event hevent => exists_eventWithPlace
      (List.mem_filter.mp (hevents.mem_iff.mp hevent)).1]
    exact hevents
  · obtain ⟨stored, -, hjoin⟩ := List.mem_filterMap.mp hevent
    obtain ⟨place, hplace, rfl⟩ := Option.map_eq_some_iff.mp hjoin
    exact ⟨List.mem_of_find?_eq_some hplace, by simpa using List.find?_some hplace⟩
  · rw [map_filterMap_of_join fun member hmember => exists_memberWithUser
      (List.mem_filter.mp (hmembers.mem_iff.mp hmember)).1]
    exact hmembers
  · obtain ⟨stored, -, hjoin⟩ := List.mem_filterMap.mp hmember
    obtain ⟨user, huser, rfl⟩ := Option.map_eq_some_iff.mp hjoin
    exact findUser_spec huser

theorem exists_row (h : group ∈ s.groups.rows) (order : ReadOrder) :
    ∃ row, s.publicFriendGroupPlanRow order group = some row ∧ row.toGroup = group := by
  obtain ⟨creator, hcreator⟩ := exists_findUser (s.group_creator group h)
  cases hrow : s.publicFriendGroupPlanRow order group with
  | none => simp [ContentDb.publicFriendGroupPlanRow, hcreator] at hrow
  | some row => exact ⟨row, rfl, (rowOf_of_row hrow).base⟩

end rows

/-! ## The next date -/

section next

variable {s : ContentDb} {group : Group} {row : PublicFriendGroupPlanRow} {today : Date}

theorem filter_future {kind : GroupEventStatus → Bool} (hkind : kind .completed = false)
    (events : List EventWithPlace) :
    (futureNonCompleted today events).filter (fun event => kind event.status) =
      events.filter fun event => decide (today ≤ event.date) && kind event.status := by
  unfold futureNonCompleted
  rw [List.filter_filter]
  refine List.filter_congr fun event _ => ?_
  by_cases hcompleted : event.status = .completed
  · simp [hcompleted, hkind]
  · simp [bne_iff_ne.mpr hcompleted, Bool.and_comm]

theorem RowOf.dates_perm (h : RowOf s group row) (kind : GroupEventStatus → Bool) :
    ((row.events.filter fun event => decide (today ≤ event.date) && kind event.status).map
      (·.date)).Perm (s.openDates today kind group) := by
  have hfilter := (h.events.filter fun event =>
    decide (today ≤ event.date) && kind event.status).map fun event : GroupEvent => event.date
  rw [List.filter_map, List.map_map] at hfilter
  exact hfilter

theorem RowOf.head?_date (h : RowOf s group row) {kind : GroupEventStatus → Bool}
    (hkind : kind .completed = false) :
    ((((futureNonCompleted today row.events).filter fun event => kind event.status).insertionSort
      byDate).head?).map (·.date) = (s.openDates today kind group).min? := by
  rw [filter_future hkind, head?_insertionSort_map (r := byDate) (·.date) fun a b => Iff.rfl]
  exact min?_of_perm (h.dates_perm kind)

theorem RowOf.nextDate (h : RowOf s group row) :
    (nextEventFrom today row.events).map (·.date) = s.nextDate today group := by
  unfold nextEventFrom ContentDb.nextDate
  dsimp only
  rw [Option.map_or, h.head?_date rfl, h.head?_date rfl]

theorem mem_of_head?_sorted {events : List EventWithPlace} {event : EventWithPlace}
    (h : (events.insertionSort byDate).head? = some event) : event ∈ events :=
  (List.perm_insertionSort byDate events).mem_iff.mp (List.mem_of_head? h)

/-- What is next is shown as it is stored. -/
theorem RowOf.showsNext (h : RowOf s group row) (env : ContentEnv) {event : EventWithPlace}
    (hnext : nextEventFrom today row.events = some event) :
    ShowsNext env s today group (friendPlanEvent env event) event.toGroupEvent := by
  have hdate : s.nextDate today group = some event.date := by
    rw [← h.nextDate, hnext]
    rfl
  have hkind : event ∈ row.events ∧ ((isConfirmed event.status = true) ∨
      (isProposedLike event.status = true ∧ s.openDates today isConfirmed group = [])) := by
    rcases Option.or_eq_some_iff.mp hnext with hconfirmed | ⟨hnone, hproposed⟩
    · have hmem := mem_of_head?_sorted hconfirmed
      rw [filter_future rfl, List.mem_filter, Bool.and_eq_true] at hmem
      exact ⟨hmem.1, .inl hmem.2.2⟩
    · have hmem := mem_of_head?_sorted hproposed
      rw [filter_future rfl, List.mem_filter, Bool.and_eq_true] at hmem
      have hmin : (s.openDates today isConfirmed group).min? = none := by
        rw [← h.head?_date rfl, hnone]
        rfl
      exact ⟨hmem.1, .inr ⟨hmem.2.2, List.min?_eq_none_iff.mp hmin⟩⟩
  obtain ⟨hmem, hkind⟩ := hkind
  obtain ⟨hplace, hid⟩ := h.places event hmem
  refine ⟨h.events.mem_iff.mp (List.mem_map_of_mem hmem), hdate, rfl, ?_,
    event.place, hplace, hid, by simp only [friendPlanEvent], by simp only [friendPlanEvent]⟩
  rcases hkind with hconfirmed | ⟨hproposed, hnone⟩
  · refine .inl ⟨hconfirmed, ?_⟩
    unfold isConfirmed at hconfirmed
    simp [friendPlanEvent, nextStatusForApi, beq_iff_eq.mp hconfirmed]
  · refine .inr ⟨hproposed, ?_, hnone⟩
    unfold isProposedLike at hproposed
    rw [Bool.or_eq_true, beq_iff_eq, beq_iff_eq] at hproposed
    rcases hproposed with hstatus | hstatus <;> simp [friendPlanEvent, nextStatusForApi, hstatus]

end next

/-! ## Friends -/

section friends

variable {s : ContentDb} {viewerId : Id} {group : Group}

/-- Whom the viewer may be told of. -/
theorem exists_friend (h : group ∈ s.friendPlans viewerId) :
    ∃ member ∈ s.acceptedOf group, member.userId ∈ s.followedIds viewerId ∧
      member.userId ≠ viewerId := by
  have hcandidate := (List.mem_filter.mp h).2
  unfold ContentDb.isPlanCandidate at hcandidate
  rw [Bool.and_eq_true, Bool.and_eq_true] at hcandidate
  obtain ⟨⟨-, hfollowed⟩, houtside⟩ := hcandidate
  obtain ⟨member, hmember, hid⟩ := List.any_eq_true.mp hfollowed
  refine ⟨member, hmember, List.contains_iff_mem.mp hid, fun hviewer => ?_⟩
  obtain ⟨hstored, hin⟩ := List.mem_filter.mp hmember
  rw [Bool.and_eq_true, beq_iff_eq, beq_iff_eq] at hin
  have hinside : (s.members.rows.any fun m => m.groupId == group.id && m.userId == viewerId &&
      (m.status == .accepted || m.status == .pending)) = true :=
    List.any_eq_true.mpr ⟨member, hstored, by simp [hin.1, hin.2, hviewer]⟩
  rw [hinside] at houtside
  cases houtside

theorem RowOf.friend {row : PublicFriendGroupPlanRow} (h : RowOf s group row) (env : ContentEnv)
    (hgroup : group ∈ s.friendPlans viewerId) :
    ∃ member ∈ s.acceptedOf group, member.userId ∈ s.followedIds viewerId ∧
      member.userId ≠ viewerId ∧ ∃ user ∈ s.users.rows, user.id = member.userId ∧
        pickFriendParticipant env row.members (s.followedIds viewerId) viewerId = some user := by
  obtain ⟨stored, hstored, hfollowed, hother⟩ := exists_friend hgroup
  obtain ⟨joined, hjoined, hsame⟩ := List.mem_map.mp (h.members.mem_iff.mpr hstored)
  have haccepted : stored.status = .accepted := by
    simpa using (Bool.and_eq_true_iff.mp (List.mem_filter.mp hstored).2).2
  -- the one picked is one of those that are let through
  have hperm := List.perm_insertionSort (byUserId env) (row.members.filter fun member =>
    member.status == .accepted && member.userId != viewerId &&
      (s.followedIds viewerId).contains member.userId)
  cases hsorted : (row.members.filter fun member => member.status == .accepted &&
      member.userId != viewerId && (s.followedIds viewerId).contains member.userId).insertionSort
        (byUserId env) with
  | nil =>
      rw [hsorted] at hperm
      have hmem := List.filter_eq_nil_iff.mp hperm.nil_eq.symm joined hjoined
      rw [← hsame] at haccepted hfollowed hother
      simp [haccepted, hfollowed, hother] at hmem
  | cons member rest =>
      rw [hsorted] at hperm
      obtain ⟨hmem, hlet⟩ := List.mem_filter.mp (hperm.mem_iff.mp List.mem_cons_self)
      rw [Bool.and_eq_true, Bool.and_eq_true, bne_iff_ne, List.contains_iff_mem] at hlet
      obtain ⟨huser, hid⟩ := h.users member hmem
      refine ⟨member.toGroupMember, h.members.mem_iff.mp (List.mem_map_of_mem hmem), hlet.2,
        hlet.1.2, member.user, huser, hid, ?_⟩
      unfold pickFriendParticipant
      rw [hsorted]
      rfl

end friends

/-! ## What is sorted -/

/-- The view of a group with what is next in it. -/
def planView (env : ContentEnv) (s : ContentDb) (viewerId : Id) (plan : DecoratedPlan) :
    PublicFriendGroupPlanView :=
  serializePublicFriendGroupPlan env plan.group (s.followedIds viewerId) plan.next viewerId

namespace ContentDb

variable (s : ContentDb)

def decoratedPlans (request : PlansRequest) (viewerId : Id) : List DecoratedPlan :=
  decoratePlans request.now ((request.order.groups (s.friendPlans viewerId)).filterMap
    (s.publicFriendGroupPlanRow request.order))

def sortedPlans (env : ContentEnv) (request : PlansRequest) (viewerId : Id) :
    List DecoratedPlan :=
  (s.decoratedPlans request viewerId).insertionSort fun left right =>
    planBefore env left.key right.key

end ContentDb

section sorted

variable {env : ContentEnv} {s : ContentDb} {viewerId : Id} {today : Date} {request : PlansRequest}

theorem decoratePlans_eq (hday : ∀ i, startOfUtcDay (request.now i) = today)
    (groups : List PublicFriendGroupPlanRow) : decoratePlans request.now groups =
      groups.map fun group => ⟨group, nextEventFrom today group.events⟩ := by
  have hnext : ∀ entry : PublicFriendGroupPlanRow × Nat,
      (⟨entry.1, pickNextEventForPublicFriendList (request.now entry.2) entry.1.events⟩ :
        DecoratedPlan) = ⟨entry.1, nextEventFrom today entry.1.events⟩ := fun entry => by
    rw [pickNextEventForPublicFriendList, hday]
  unfold decoratePlans
  rw [List.map_congr_left fun entry _ => hnext entry]
  exact (List.map_map.symm.trans (by rw [List.zipIdx_map_fst]) :
    groups.zipIdx.map ((fun group => (⟨group, nextEventFrom today group.events⟩ : DecoratedPlan)) ∘
      Prod.fst) = _)

/-- A plan to be sorted is a row of a group that is to be shown. -/
theorem mem_decoratedPlans (hday : ∀ i, startOfUtcDay (request.now i) = today)
    {plan : DecoratedPlan} (h : plan ∈ s.decoratedPlans request viewerId) :
    ∃ group ∈ s.friendPlans viewerId, RowOf s group plan.group ∧
      plan.next = nextEventFrom today plan.group.events := by
  unfold ContentDb.decoratedPlans at h
  rw [decoratePlans_eq hday] at h
  obtain ⟨row, hrow, rfl⟩ := List.mem_map.mp h
  obtain ⟨group, hgroup, hread⟩ := List.mem_filterMap.mp hrow
  exact ⟨group, (request.order.groups_perm _).mem_iff.mp hgroup, rowOf_of_row hread, rfl⟩

theorem DecoratedPlan.key_eq {group : Group} {plan : DecoratedPlan} (h : RowOf s group plan.group)
    (hnext : plan.next = nextEventFrom today plan.group.events) :
    plan.key = s.planKey today plan.group.toGroup := by
  unfold DecoratedPlan.key ContentDb.planKey
  rw [hnext, h.nextDate, h.base]

theorem decoratedPlans_groups (hday : ∀ i, startOfUtcDay (request.now i) = today) :
    (s.decoratedPlans request viewerId).map (·.group.toGroup) =
      request.order.groups (s.friendPlans viewerId) := by
  unfold ContentDb.decoratedPlans
  rw [decoratePlans_eq hday, List.map_map]
  refine map_filterMap_of_join (g := PublicFriendGroupPlanRow.toGroup) fun group hgroup => ?_
  have hstored := (request.order.groups_perm _).mem_iff.mp hgroup
  exact exists_row (List.mem_filter.mp hstored).1 request.order

theorem keys_decoratedPlans (hday : ∀ i, startOfUtcDay (request.now i) = today) :
    ((s.decoratedPlans request viewerId).map (·.key)).Perm
      ((s.friendPlans viewerId).map (s.planKey today)) := by
  have hkeys : (s.decoratedPlans request viewerId).map (·.key) =
      ((s.decoratedPlans request viewerId).map (·.group.toGroup)).map (s.planKey today) := by
    rw [List.map_map]
    refine List.map_congr_left fun plan hplan => ?_
    obtain ⟨group, -, hrow, hnext⟩ := mem_decoratedPlans hday hplan
    exact DecoratedPlan.key_eq hrow hnext
  rw [hkeys, decoratedPlans_groups hday]
  exact (request.order.groups_perm _).map _

/-- By date, what has none last, and then by name and id. -/
theorem compares_comparePlans (h : Compares env.localeCompare) : Compares (comparePlans env) := by
  have hnames : Compares (comparePlanNames env) := (h.on PlanKey.name).orElse (h.on PlanKey.id)
  have hsame : comparePlans env = fun left right =>
      if compareLast (fun a b : Int => a - b) left.sortKey right.sortKey ≠ 0 then
        compareLast (fun a b : Int => a - b) left.sortKey right.sortKey
      else comparePlanNames env left right := by
    funext left right
    unfold comparePlans
    cases left.sortKey with
    | none => cases right.sortKey <;> rfl
    | some l =>
        cases right.sortKey with
        | none => rfl
        | some r =>
            have htie : l - r = 0 ↔ l = r := Int.sub_eq_zero
            simp only [compareLast, ne_eq, htie]
  rw [hsame]
  exact (compares_sub.last.on PlanKey.sortKey).orElse hnames

theorem id_eq_of_tie {k l : PlanKey} (htie : comparePlans env k l = 0) :
    env.localeCompare k.id l.id = 0 := by
  have hnames : comparePlanNames env k l = 0 → env.localeCompare k.id l.id = 0 := by
    intro htie
    unfold comparePlanNames at htie
    split at htie
    · exact absurd htie ‹_›
    · exact htie
  unfold comparePlans at htie
  split at htie
  · exact hnames htie
  · cases htie
  · cases htie
  · split at htie
    · exact absurd (Int.sub_eq_zero.mp htie) ‹_›
    · exact hnames htie

/-- The groups to be shown have each its own key. -/
theorem planKey_apart (h : SortsGroups env s) :
    ∀ k ∈ (s.friendPlans viewerId).map (s.planKey today),
      ∀ l ∈ (s.friendPlans viewerId).map (s.planKey today), comparePlans env k l = 0 → k = l := by
  intro k hk l hl htie
  obtain ⟨g, hg, rfl⟩ := List.mem_map.mp hk
  obtain ⟨g', hg', rfl⟩ := List.mem_map.mp hl
  have hgroup := (List.mem_filter.mp hg).1
  have hgroup' := (List.mem_filter.mp hg').1
  have hid := h.apart g hgroup g' hgroup' (id_eq_of_tie htie)
  rw [s.group_unique hgroup hgroup' hid]

/-- Whatever the order the database answers in, the sorted keys are the same. -/
theorem keys_sortedPlans (h : SortsGroups env s)
    (hday : ∀ i, startOfUtcDay (request.now i) = today) :
    (s.sortedPlans env request viewerId).map (·.key) =
      ((s.friendPlans viewerId).map (s.planKey today)).insertionSort (planBefore env) :=
  map_insertionSort_of_perm (compares_comparePlans h.compares) (keys_decoratedPlans hday)
    (planKey_apart h)

end sorted

/-! ## The answer -/

section answer

variable (env : ContentEnv) (s : ContentDb) (viewerId : Id) (request : PlansRequest)

theorem friendPlans_of_following_none (h : s.followedIds viewerId = []) :
    s.friendPlans viewerId = [] := by
  unfold ContentDb.friendPlans ContentDb.planCandidates
  rw [h, List.filter_eq_nil_iff]
  intro group _
  simp [ContentDb.isPlanCandidate]

theorem candidates_run (order : ReadOrder) :
    (listPublicFriendGroupPlanCandidates order true viewerId).run s = ⟨s, [], .ok
      ⟨(order.groups (s.friendPlans viewerId)).filterMap (s.publicFriendGroupPlanRow order),
        (s.friendPlans viewerId).length⟩⟩ := by
  unfold listPublicFriendGroupPlanCandidates
  rw [run_bind_ok (by rw [run_query]), run_query]
  dsimp only
  split
  · rename_i hnone
    rw [friendPlans_of_following_none s viewerId (List.eq_nil_of_length_eq_zero hnone),
      List.perm_nil.mp (order.groups_perm [])]
    rfl
  · rfl

theorem listPublicFriendGroupPlans_run (offset limit : Nat) :
    ((listPublicFriendGroupPlans env request viewerId offset limit).run s).result = .ok
      ⟨(((s.sortedPlans env request viewerId).drop offset).take limit).map
        (planView env s viewerId), (s.friendPlans viewerId).length⟩ := by
  have hfound := candidates_run s viewerId request.order
  unfold listPublicFriendGroupPlans
  rw [run_bind_ok (by rw [hfound]), hfound]
  rfl

end answer

section walk

variable {env : ContentEnv} {s : ContentDb} {viewerId : Id} {today : Date}
  {requests : Nat → PlansRequest} {limit : Nat}

theorem friendPlansPages_eq (fuel : Nat) : friendPlansPages env requests viewerId limit s fuel =
    (walk (serveOffsets (φ := Failure) (s.friendPlans viewerId).length limit fun offset =>
      s.sortedPlans env (requests offset) viewerId) fuel 0 none).map
        (Page.map id (planView env s viewerId)) := by
  refine walk_map (fun i cursor => ?_) fuel 0 none
  dsimp only
  rw [Option.map_id, id_eq, listPublicFriendGroupPlans_run]
  exact congrArg Except.ok (offsetPage_map id (planView env s viewerId) _ limit _ _).symm

/-- Together the slots show the rows that a request sorts, with the same keys as it. -/
theorem slots_sortedPlans (viewerId : Id) (hlimit : 0 < limit) (hsorts : SortsGroups env s)
    (hday : ∀ offset i, startOfUtcDay ((requests offset).now i) = today) :
    Fills (s.friendPlans viewerId).length limit
        (fun offset => s.sortedPlans env (requests offset) viewerId) ∧
      (slots (s.friendPlans viewerId).length limit fun offset =>
        s.sortedPlans env (requests offset) viewerId).map (·.key) =
          ((s.friendPlans viewerId).map (s.planKey today)).insertionSort (planBefore env) := by
  have hkeys : ∀ offset, (s.sortedPlans env (requests offset) viewerId).map (·.key) =
      ((s.friendPlans viewerId).map (s.planKey today)).insertionSort (planBefore env) :=
    fun offset => keys_sortedPlans hsorts (hday offset)
  have htotal : (((s.friendPlans viewerId).map (s.planKey today)).insertionSort
      (planBefore env)).length = (s.friendPlans viewerId).length := by
    rw [List.length_insertionSort, List.length_map]
  have hlength : ∀ offset, (s.sortedPlans env (requests offset) viewerId).length =
      (s.friendPlans viewerId).length := by
    intro offset
    rw [← htotal, ← hkeys offset, List.length_map]
  refine ⟨⟨fun k => ?_, fun offset => (hlength offset).le⟩, ?_⟩
  · rw [hlength]
    exact Nat.min_le_left _ _
  · rw [map_slots]
    simp only [hkeys]
    have hall := slots_const hlimit (((s.friendPlans viewerId).map (s.planKey today)).insertionSort
      (planBefore env))
    rwa [htotal] at hall

theorem nodup_planKeys (s : ContentDb) (viewerId : Id) (today : Date) :
    ((s.friendPlans viewerId).map (s.planKey today)).Nodup := by
  have hids : (s.groups.rows.map (·.id)).Nodup := by
    rw [List.Nodup, List.pairwise_map]
    refine s.groups.distinct.imp fun {g h} hclash hid => ?_
    simp [Relational.conflicts, hid] at hclash
  have hsome : ((s.friendPlans viewerId).map (·.id)).Nodup :=
    hids.sublist (List.filter_sublist.map _)
  have hkeys : ((s.friendPlans viewerId).map (s.planKey today)).map (·.id) =
      (s.friendPlans viewerId).map (·.id) := by
    rw [List.map_map]
    rfl
  exact (hkeys ▸ hsome).of_map PlanKey.id

end walk

theorem tellsPlan_planView (env : ContentEnv) {s : ContentDb} {viewerId : Id} {today : Date}
    {group : Group} {plan : DecoratedPlan} (hgroup : group ∈ s.friendPlans viewerId)
    (hrow : RowOf s group plan.group)
    (hnext : plan.next = nextEventFrom today plan.group.events) :
    TellsPlan env s viewerId today group (planView env s viewerId plan) := by
  have hbase := hrow.base
  obtain ⟨member, hmember, hfollowed, hother, user, huser, hid, hpicked⟩ := hrow.friend env hgroup
  have hcount : ((plan.group.members.filter (·.status == .accepted)).length) =
      (s.acceptedOf group).length := by
    rw [← hrow.members.length_eq, List.length_map]
    refine congrArg List.length (List.filter_eq_self.mpr fun joined hjoined => ?_)
    have hstored := hrow.members.mem_iff.mp (List.mem_map_of_mem hjoined)
    exact (Bool.and_eq_true_iff.mp (List.mem_filter.mp hstored).2).2
  refine ⟨congrArg Group.id hbase, congrArg Group.name hbase,
    ⟨plan.group.createdBy, hrow.createdBy.1, hrow.createdBy.2, rfl⟩, hcount,
    ⟨member, hmember, hfollowed, hother, user, huser, hid, ?_⟩, ?_, fun view hview => ?_⟩
  · exact congrArg (Option.map serializeUserPublic) hpicked
  · rw [← hrow.nextDate, ← hnext]
    simp [planView, serializePublicFriendGroupPlan]
  · obtain ⟨event, hevent, rfl⟩ := Option.map_eq_some_iff.mp hview
    exact ⟨event.toGroupEvent, hrow.showsNext env (hnext ▸ hevent)⟩

/-- For every store and viewer, in whatever order the database answers each of the requests of a
day: the pages end, all report the number of public groups of friends, and together they show
each of these groups once, the next to meet first, with a friend who is in it. -/
theorem friend_plans_shown_once (env : ContentEnv) (s : ContentDb) (viewerId : Id)
    (requests : Nat → PlansRequest) (limit : Nat) (hlimit : 0 < limit) (today : Date)
    (hsorts : SortsGroups env s)
    (hday : ∀ offset i, startOfUtcDay ((requests offset).now i) = today) :
    (∀ offset, ∃ answer, ((listPublicFriendGroupPlans env (requests offset) viewerId offset
      limit).run s).result = .ok answer ∧ answer.total = (s.friendPlans viewerId).length) ∧
    ∃ groups, groups.Perm (s.friendPlans viewerId) ∧
      groups.Pairwise (fun g h => planBefore env (s.planKey today g) (s.planKey today h)) ∧
      ∃ fuel, Ended (friendPlansPages env requests viewerId limit s fuel) ∧
        List.Forall₂ (TellsPlan env s viewerId today) groups
          (allItems (friendPlansPages env requests viewerId limit s fuel)) := by
  refine ⟨fun offset => ⟨_, listPublicFriendGroupPlans_run env s viewerId (requests offset) offset
    limit, rfl⟩, ?_⟩
  obtain ⟨hfills, hkeys⟩ := slots_sortedPlans viewerId hlimit hsorts hday
  obtain ⟨hended, hall⟩ := walk_offsets (φ := Failure) hlimit hfills (Nat.lt_succ_self _)
  -- what is shown, row by row
  have hrows : ∀ plan ∈ slots (s.friendPlans viewerId).length limit
      (fun offset => s.sortedPlans env (requests offset) viewerId),
      ∃ group ∈ s.friendPlans viewerId, RowOf s group plan.group ∧
        plan.next = nextEventFrom today plan.group.events := by
    intro plan hplan
    obtain ⟨k, -, hslot⟩ := List.mem_flatMap.mp hplan
    have hsorted := List.mem_of_mem_drop (List.mem_of_mem_take hslot)
    exact mem_decoratedPlans (hday _) ((List.perm_insertionSort _ _).mem_iff.mp hsorted)
  generalize hshown : slots (s.friendPlans viewerId).length limit
    (fun offset => s.sortedPlans env (requests offset) viewerId) = shown at *
  have hgroups : (shown.map (·.group.toGroup)).map (s.planKey today) =
      ((s.friendPlans viewerId).map (s.planKey today)).insertionSort (planBefore env) := by
    rw [← hkeys, List.map_map]
    refine List.map_congr_left fun plan hplan => ?_
    obtain ⟨group, -, hrow, hnext⟩ := hrows plan hplan
    exact (DecoratedPlan.key_eq hrow hnext).symm
  have hcompares := compares_comparePlans hsorts.compares
  refine ⟨shown.map (·.group.toGroup), ?_, ?_,
    (lastPage (s.friendPlans viewerId).length limit).succ, ?_, ?_⟩
  · refine perm_of_map_perm (nodup_planKeys s viewerId today) (fun group hgroup => ?_) ?_
    · obtain ⟨plan, hplan, rfl⟩ := List.mem_map.mp hgroup
      obtain ⟨group, hgroup, hrow, -⟩ := hrows plan hplan
      rwa [hrow.base]
    · rw [hgroups]
      exact List.perm_insertionSort _ _
  · have htotal : Std.Total (planBefore env) := ⟨hcompares.total⟩
    have htrans : IsTrans PlanKey (planBefore env) := ⟨hcompares.trans⟩
    rw [← List.pairwise_map, hgroups]
    exact List.pairwise_insertionSort _ _
  · rw [friendPlansPages_eq]
    exact ended_map.mpr hended
  · rw [friendPlansPages_eq, allItems_map, hall, List.forall₂_map_left_iff,
      List.forall₂_map_right_iff, List.forall₂_same]
    intro plan hplan
    obtain ⟨group, hgroup, hrow, hnext⟩ := hrows plan hplan
    rw [hrow.base]
    exact tellsPlan_planView env hgroup hrow hnext

/-! ## Two plans of Ana's -/

def anasGroupNamed (id name : String) : Group where
  id := id
  name := name
  createdById := "ana"
  inviteCode := id
  visibility := .publicFollowers
  createdAt := 0

def anaIn (groupId : Id) : GroupMember where
  id := groupId
  groupId := groupId
  userId := "ana"
  role := .owner
  status := .accepted
  createdAt := 0

/-- Ana, whom beto follows, is to have a picnic, and a dinner some day. -/
def anasPlans : SocialDb where
  users := anaBetoAndCaro
  settings := .empty
  follows := .singleton { id := "f1", followerId := "beto", followedId := "ana" }
  cities := .empty
  places := .singleton aPlace
  groups := ⟨[anasGroupNamed "g1" "Cena", anasGroupNamed "g2" "Picnic"], by decide⟩
  members := ⟨[anaIn "g1", anaIn "g2"], by decide⟩
  events := .singleton { id := "e1", groupId := "g2", placeId := "p1", proposedById := "ana",
                         date := 10, createdAt := 0 }
  rsvps := .empty
  messages := .empty
  group_creator := by decide
  member_group := by decide
  member_user := by decide
  event_group := by decide
  event_place := by decide
  event_proposer := by decide
  message_author := by simp

def anasPlansStore : ContentDb := .ofSocial anasPlans {} (by decide) (by decide)

def asStored : ReadOrder where
  groups rows := rows
  events rows := rows
  members rows := rows
  groups_perm _ := .refl _
  events_perm _ := .refl _
  members_perm _ := .refl _

/-- Behind the first page the groups come in the other order. -/
def betosRequests (offset : Nat) : PlansRequest where
  order := if offset = 0 then asStored else
    { asStored with groups := List.reverse, groups_perm := fun rows => List.reverse_perm rows }
  now _ := 0

theorem compares_compareCodePoints : Compares compareCodePoints where
  swap a b := by
    have hab : a < b → ¬ b < a := lt_asymm
    unfold compareCodePoints
    by_cases hlt : a < b
    · simp [hlt, hab hlt]
    · by_cases hgt : b < a <;> simp [hlt, hgt]
  trans := collates_compareCodePoints.trans

/-- Beto is shown one plan a page, as the order changes. -/
theorem beto_is_shown_both_plans :
    (∀ offset, ∃ answer, ((listPublicFriendGroupPlans aContentEnv (betosRequests offset) "beto"
      offset 1).run anasPlansStore).result = .ok answer ∧
      answer.total = (anasPlansStore.friendPlans "beto").length) ∧
    ∃ groups, groups.Perm (anasPlansStore.friendPlans "beto") ∧
      groups.Pairwise (fun g h =>
        planBefore aContentEnv (anasPlansStore.planKey 0 g) (anasPlansStore.planKey 0 h)) ∧
      ∃ fuel, Ended (friendPlansPages aContentEnv betosRequests "beto" 1 anasPlansStore fuel) ∧
        List.Forall₂ (TellsPlan aContentEnv anasPlansStore "beto" 0) groups
          (allItems (friendPlansPages aContentEnv betosRequests "beto" 1 anasPlansStore fuel)) := by
  have hsorts : SortsGroups aContentEnv anasPlansStore := by
    refine ⟨compares_compareCodePoints, fun g hg h hh htie => ?_⟩
    have hids := ordersIds_compareCodePoints (anasPlansStore.groups.rows.map (·.id))
    exact hids.apart _ (List.mem_map_of_mem hg) _ (List.mem_map_of_mem hh) (le_of_eq htie)
      (le_of_eq (compares_compareCodePoints.eq_zero_comm htie))
  have hepoch : startOfUtcDay 0 = 0 := by decide
  exact friend_plans_shown_once aContentEnv anasPlansStore "beto" betosRequests 1 (by decide) 0
    hsorts fun _ _ => hepoch

end Feca.Content
