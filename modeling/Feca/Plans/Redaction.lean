import Feca.Relational.Versions
import Feca.Plans.Scroll

/-! # What a viewer cannot tell apart

Two stores whose plans a viewer sees through the same disguise: every plan is
the same in both, or the viewer is no accepted member of it and the two
versions differ in what redaction hides. `get` and `discover` answer the viewer
alike on both.
-/

namespace Feca.Social

open Concurrency Concurrency.Prog Relational Paging

/-- The same plan, or a disguised version of it. -/
def Lookalike (followedIds : List Id) (viewerId : Id) (p q : GroupWithRelations) : Prop :=
  p = q ∨ Disguised followedIds viewerId p q

/-- Two stores that look the same to the viewer. -/
structure Indistinguishable (viewerId : Id) (s t : SocialDb) : Prop where
  plans : List.Forall₂ (Lookalike (s.followedIds viewerId) viewerId) s.allPlans t.allPlans
  followedIds : t.followedIds viewerId = s.followedIds viewerId
  city : t.userCityId viewerId = s.userCityId viewerId
  cities : t.cities.rows = s.cities.rows

theorem Lookalike.group {followedIds : List Id} {viewerId : Id} {p q : GroupWithRelations}
    (h : Lookalike followedIds viewerId p q) : q.toGroup = p.toGroup := by
  rcases h with rfl | h
  · rfl
  · exact h.group

/-- The viewer is an outsider in both versions. -/
theorem Disguised.outsider' {followedIds : List Id} {viewerId : Id} {p q : GroupWithRelations}
    (h : Disguised followedIds viewerId p q) {m : MemberWithRelations} (hm : m ∈ q.members)
    (huser : m.userId = viewerId) : m.status ≠ .accepted := by
  have hfiltered : m ∈ q.members.filter (·.userId == viewerId) :=
    List.mem_filter.mpr ⟨hm, by simpa using huser⟩
  rw [h.viewer] at hfiltered
  exact h.outsider m (List.mem_filter.mp hfiltered).1 huser

/-! ## get -/

/-- A plan is read from among all plans. -/
theorem findPlanById_eq_find? (s : SocialDb) (id : Id) :
    s.findPlanById id = s.allPlans.find? (·.id == id) := by
  unfold SocialDb.findPlanById SocialDb.findGroup SocialDb.allPlans
  rw [List.find?_filterMap]
  have hsame : s.groups.rows.find? (·.id == id) = s.groups.rows.find? (fun g =>
      (s.withRelations planEventBefore planMemberBefore g).any (·.id == id)) := by
    rw [← List.head?_filter, ← List.head?_filter]
    congr 1
    refine List.filter_congr fun g hg => ?_
    have hjoined : (s.withRelations planEventBefore planMemberBefore g).isSome :=
      SocialDb.withRelations_isSome hg
    obtain ⟨plan, hplan⟩ := Option.isSome_iff_exists.mp hjoined
    rw [hplan, Option.any_some]
    obtain ⟨u, -, rfl⟩ := Option.map_eq_some_iff.mp hplan
    rfl
  rw [hsame]

/-- What `get` makes of the plan and the people the viewer follows. -/
def planAnswer (env : PlansEnv) (userId : Id) (followedIds : List Id) :
    Option GroupWithRelations → Except Failure PlanView
  | none => .error (.http (NotFoundException "Plan not found"))
  | some plan =>
      let status := (plan.membershipOf userId).map (·.status)
      if plan.visibility ≠ .«public» ∧ status = none then
        .error (.http (NotFoundException "Plan not found"))
      else if plan.visibility ≠ .«public» ∧ status ≠ some .accepted then
        .error (.http (ForbiddenException (some "PLAN_MEMBERSHIP_REQUIRED")
          "Aceptá la invitación o solicitud antes de ver este plan."))
      else .ok (serializePlan plan userId followedIds (status == some .accepted)
        (nextEvent env.now plan))

theorem get_result (env : PlansEnv) (userId groupId : Id) (s : SocialDb) :
    ((PlansService.get env userId groupId).run s).result =
      planAnswer env userId (s.followedIds userId) (s.findPlanById groupId) := by
  unfold PlansService.get requirePlan
  cases hplan : s.findPlanById groupId with
  | none => simp [run_bind, Answer.andThen, hplan, throwHttp, planAnswer]
  | some plan =>
      have hmembership := SocialDb.findMembership_eq hplan userId
      simp only [run_bind, run_query, run_pure, Answer.andThen, hplan, findMembership, run_stmt,
        hmembership]
      unfold presentPlan planAnswer
      have hstatus : ((plan.membershipOf userId).map (·.toGroupMember)).map (·.status) =
          (plan.membershipOf userId).map (·.status) := by
        rw [Option.map_map]
        rfl
      simp only [hstatus, Option.map_eq_none_iff]
      split
      · rfl
      · split
        · rfl
        · rfl

/-- Redaction in `get`: the viewer is answered alike on both stores. -/
theorem planAnswer_lookalike {env : PlansEnv} {userId : Id} {followedIds : List Id}
    {p q : Option GroupWithRelations} (h : Option.Rel (Lookalike followedIds userId) p q) :
    planAnswer env userId followedIds q = planAnswer env userId followedIds p := by
  cases h with
  | none => rfl
  | @some p q hpq =>
      rcases hpq with rfl | hdisguised
      · rfl
      · have hstatus : ((p.membershipOf userId).map (·.status) == some .accepted) = false := by
          cases hm : p.membershipOf userId with
          | none => rfl
          | some m =>
              have houtsider := hdisguised.outsider m (List.mem_of_find?_eq_some hm)
                (by simpa using List.find?_some hm)
              simpa using houtsider
        have hnext : Option.Rel EventDisguised (nextEvent env.now p) (nextEvent env.now q) :=
          versions_find? (fun e f hef => by rw [hef.event]) hdisguised.events
        unfold planAnswer
        dsimp only
        rw [membershipOf_eq hdisguised.viewer, hstatus, serializePlan_disguised hdisguised hnext,
          hdisguised.group]

/-! ## discover -/

section discover

variable {followedIds : List Id} {viewerId : Id} {s t : SocialDb} {env : DiscoverEnv}
  {query : DiscoverPlansQuery}

def DiscoverPlansQuery.Unbounded (query : DiscoverPlansQuery) : Prop :=
  query.minLat = none ∧ query.maxLat = none ∧ query.minLng = none ∧ query.maxLng = none

/-- Without bounds, no query tells an event from its disguise. -/
theorem eventMatches_disguised (hcities : t.cities.rows = s.cities.rows) (hbounds : query.Unbounded)
    {cityId : Option Id} {fromDate : Date} {toDate : Option Date} {e f : EventWithRelations}
    (h : EventDisguised e f) :
    s.eventMatches env.containsInsensitive (query.eventWhere cityId fromDate toDate) e =
      t.eventMatches env.containsInsensitive (query.eventWhere cityId fromDate toDate) f := by
  obtain ⟨hminLat, hmaxLat, hminLng, hmaxLng⟩ := hbounds
  obtain ⟨address, lat, lng, hplace⟩ := h.place
  unfold SocialDb.eventMatches DiscoverPlansQuery.eventWhere withinBounds
  rw [h.event, hplace, hcities, hminLat, hmaxLat, hminLng, hmaxLng]
  rfl

/-- Both versions of a row show the same. -/
def LookalikeRow (followedIds : List Id) (viewerId : Id) (a b : PlanRow) : Prop :=
  a = b ∨ Disguised followedIds viewerId a.group b.group ∧ EventDisguised a.event b.event

theorem LookalikeRow.key {a b : PlanRow} (h : LookalikeRow followedIds viewerId a b) :
    a.key = b.key := by
  rcases h with rfl | ⟨hgroup, hevent⟩
  · rfl
  · unfold PlanRow.key
    rw [hgroup.group, hevent.event]

theorem LookalikeRow.view {a b : PlanRow} (h : LookalikeRow followedIds viewerId a b) :
    a.view viewerId followedIds = b.view viewerId followedIds := by
  rcases h with rfl | ⟨hgroup, hevent⟩
  · rfl
  · have houtside : ∀ members : List MemberWithRelations,
        (∀ m ∈ members, m.userId = viewerId → m.status ≠ .accepted) →
          (members.any fun m => m.userId == viewerId && m.status == .accepted) = false := by
      intro members h
      rw [List.any_eq_false]
      intro m hm
      simpa using h m hm
    unfold PlanRow.view
    rw [houtside _ hgroup.outsider, houtside _ fun m hm => hgroup.outsider' hm]
    exact (serializePlan_disguised hgroup (.some hevent)).symm

theorem Lookalike.events {p q : GroupWithRelations} (h : Lookalike followedIds viewerId p q) :
    List.Forall₂ EventDisguised p.events q.events := by
  rcases h with rfl | h
  · exact List.forall₂_same.mpr fun event _ => .refl event
  · exact h.events

/-- The stores list the same plans, each by the event the query asks for. -/
theorem listing_lookalike (h : Indistinguishable viewerId s t) (hbounds : query.Unbounded)
    {toDate : Option Date} {fromDate : Date} :
    List.Forall₂ (LookalikeRow (s.followedIds viewerId) viewerId)
      (listing env s viewerId query toDate fromDate)
      (listing env t viewerId query toDate fromDate) := by
  have hcity : query.viewerCityId t viewerId = query.viewerCityId s viewerId := by
    unfold DiscoverPlansQuery.viewerCityId
    rw [h.city]
  unfold listing foundPlans SocialDb.discoverablePlans decorated
  rw [hcity]
  set eventWhere := query.eventWhere (query.viewerCityId s viewerId) fromDate toDate
  have hmatches : ∀ e f, EventDisguised e f →
      s.eventMatches env.containsInsensitive eventWhere e =
        t.eventMatches env.containsInsensitive eventWhere f :=
    fun e f hef => eventMatches_disguised h.cities hbounds hef
  have hfound : ∀ p q, Lookalike (s.followedIds viewerId) viewerId p q →
      s.isDiscoverable env.containsInsensitive eventWhere p =
        t.isDiscoverable env.containsInsensitive eventWhere q := by
    intro p q hpq
    unfold SocialDb.isDiscoverable
    rw [hpq.group, versions_any hmatches hpq.events]
  -- Narrowing both versions to the events of the query keeps them alike.
  have hnarrowed : ∀ p q, Lookalike (s.followedIds viewerId) viewerId p q →
      Lookalike (s.followedIds viewerId) viewerId (s.narrowed env.containsInsensitive eventWhere p)
        (t.narrowed env.containsInsensitive eventWhere q) := by
    rintro p q (rfl | hpq)
    · left
      unfold SocialDb.narrowed
      rw [List.filter_congr fun e _ => hmatches e e (.refl e)]
    · exact .inr ⟨hpq.group, hpq.createdBy, versions_filter hmatches hpq.events, hpq.viewer,
        hpq.outsider, hpq.preview, hpq.count, hpq.strangers, hpq.strangers'⟩
  refine versions_insertionSort (fun a b a' b' ha hb => by rw [ha.key, hb.key]) ?_
  refine List.rel_filterMap (R := Lookalike (s.followedIds viewerId) viewerId)
    (fun p q hpq => ?_) ?_
  · rcases hpq with rfl | hpq
    · cases p.events.head? with
      | none => exact .none
      | some event => exact .some (.inl rfl)
    · have hhead := versions_head? hpq.events
      generalize p.events.head? = e, q.events.head? = f at hhead
      cases hhead with
      | none => exact .none
      | some hevent => exact .some (.inr ⟨hpq, hevent⟩)
  · rw [List.forall₂_map_left_iff, List.forall₂_map_right_iff]
    exact (versions_filter hfound h.plans).imp hnarrowed

/-- A page of lookalikes shows the same, and ends in the same cursor. -/
theorem discoveryPage_lookalike {rows rows' : List PlanRow}
    (h : List.Forall₂ (LookalikeRow followedIds viewerId) rows rows') {limit : Rat}
    {cursor : Option Cursor} {encode : Cursor → String} :
    (discoveryPage env.localeCompare limit rows cursor).map encode (PlanRow.view viewerId followedIds) =
      (discoveryPage env.localeCompare limit rows' cursor).map encode
        (PlanRow.view viewerId followedIds) := by
  have hfound := versions_filter (p := fun row : PlanRow =>
      cursor.all fun c => decide (comparePlanCursor env.localeCompare row.key c > 0))
    (fun a b hab => by rw [hab.key]) h
  have hpage := List.forall₂_take limit.floor.toNat hfound
  unfold discoveryPage Page.map
  dsimp only
  rw [hfound.length_eq, versions_map (fun a b hab => hab.view) hpage, ← List.getLast?_map,
    ← List.getLast?_map, versions_map (fun a b hab => hab.key) hpage]

end discover

/-! The checks of a query do not look at the store. -/

theorem ended_assertBounds (codec : CursorCodec) (query : DiscoverPlansQuery) :
    (assertBounds codec query).ended = true := by
  unfold assertBounds
  split
  · rfl
  · split
    · rfl
    · split
      · rfl
      · rfl

theorem ended_toDateArgument (codec : CursorCodec) (query : DiscoverPlansQuery) :
    (toDateArgument codec query).ended = true := by
  unfold toDateArgument
  split
  · rfl
  · split
    · rfl
    · rfl

theorem ended_planCursorArgument (codec : CursorCodec) (cursor : Option String) :
    (planCursorArgument codec cursor).ended = true := by
  unfold planCursorArgument
  split
  · rfl
  · split
    · rfl
    · rfl

/-- Redaction in `discover`: the viewer is answered alike on both stores. -/
theorem discover_indistinguishable {viewerId : Id} {s t : SocialDb}
    (h : Indistinguishable viewerId s t) (env : DiscoverEnv) {query : DiscoverPlansQuery}
    (hbounds : query.Unbounded) : ((PlansService.discover env viewerId query).run t).result =
      ((PlansService.discover env viewerId query).run s).result := by
  obtain ⟨checked, hchecked⟩ := run_of_ended (ended_assertBounds env.codec query)
  obtain ⟨toDate, htoDate⟩ := run_of_ended (ended_toDateArgument env.codec query)
  obtain ⟨cursor, hcursor⟩ := run_of_ended (ended_planCursorArgument env.codec query.cursor)
  unfold PlansService.discover
  simp only [run_bind, Answer.andThen, hchecked, htoDate, hcursor, viewerCity_run, run_query,
    run_pure, h.followedIds]
  cases checked with
  | error e => rfl
  | ok _ =>
      cases toDate with
      | error e => rfl
      | ok toDate =>
          cases cursor with
          | error e => rfl
          | ok cursor =>
              refine congrArg Except.ok (Eq.symm ?_)
              exact discoveryPage_lookalike (listing_lookalike h hbounds)

/-- Redaction noninterference: whatever a store holds behind the disguise,
neither request shows it. -/
theorem redaction_hides (viewerId : Id) (s t : SocialDb) (h : Indistinguishable viewerId s t) :
    (∀ (env : PlansEnv) (groupId : Id), ((PlansService.get env viewerId groupId).run t).result =
      ((PlansService.get env viewerId groupId).run s).result) ∧
    ∀ (env : DiscoverEnv) (query : DiscoverPlansQuery), query.Unbounded →
      ((PlansService.discover env viewerId query).run t).result =
        ((PlansService.discover env viewerId query).run s).result := by
  refine ⟨fun env groupId => ?_, fun env query hbounds => discover_indistinguishable h env hbounds⟩
  rw [get_result, get_result, h.followedIds, findPlanById_eq_find?, findPlanById_eq_find?]
  exact planAnswer_lookalike (versions_find? (fun p q hpq => by rw [hpq.group]) h.plans)

/-! ## Two versions of a plan -/

/-- A café at so many thousandths of a degree south. -/
def cafe (address : String) (south : Int) : Place :=
  { aPlace with address, lat := some (toDouble (mkRat (-south) 1000)) }

/-- Ana's plan at the café, to be joined with her approval. -/
def cafePlan (place : Place) : SocialDb :=
  let base : SocialDb := .ofUsers anaBetoAndCaro .empty .empty .empty (.singleton place)
  ((createPlan (anEnv "g1" ["m1"])
    { aPublicPlan "AAAAAA" 10 with joinPolicy := some .requestApproval }).run base).store

/-- Caro has asked to join, and Ana is going. -/
def busierPlan (place : Place) : SocialDb :=
  let asked := ((joinPlan (anEnv "g1" ["m2"]) "g1" "caro").run (cafePlan place)).store
  ((upsertRsvp { id := "r1", eventId := "g1", userId := "ana", rsvp := .going,
                 createdAt := 0 }).run asked).store

def anEventAt (place : Place) (rsvps : List GroupEventRsvp) : EventWithRelations :=
  { id := "g1", groupId := "g1", placeId := "p1", proposedById := "ana", date := 10,
    status := .confirmed, createdAt := 0, place, proposedBy := aUser "ana", rsvps }

def aMember (id userId : Id) (role : GroupMemberRole) (status : GroupMemberStatus) :
    MemberWithRelations :=
  { id, groupId := "g1", userId, role, status, createdAt := 0, user := aUser userId,
    invitedBy := none }

def aPlanWith (event : EventWithRelations) (members : List MemberWithRelations) :
    GroupWithRelations :=
  { id := "g1", name := "Merienda", createdById := "ana", inviteCode := "AAAAAA",
    visibility := .«public», joinPolicy := .requestApproval, createdAt := 0,
    createdBy := aUser "ana", events := [event], members }

def betosEnv : PlansEnv where
  toSocialEnv := anEnv "" []
  codec := aDiscoverEnv.codec
  rsvpId := ""
  messageId := ""

/-- Beto learns neither the street, nor who asked to join, nor who is going. -/
theorem beto_sees_one_plan :
    ((PlansService.get betosEnv "beto" "g1").run
      (busierPlan (cafe "Mitre 5" 34905))).result =
        ((PlansService.get betosEnv "beto" "g1").run
          (cafePlan (cafe "San Martín 100" 34896))).result := by
  have hplain : (cafePlan (cafe "San Martín 100" 34896)).allPlans =
      [aPlanWith (anEventAt (cafe "San Martín 100" 34896) [])
        [aMember "m1" "ana" .owner .accepted]] := by decide +kernel
  have hbusier : (busierPlan (cafe "Mitre 5" 34905)).allPlans =
      [aPlanWith (anEventAt (cafe "Mitre 5" 34905)
          [{ id := "r1", eventId := "g1", userId := "ana", rsvp := .going, createdAt := 0 }])
        [aMember "m1" "ana" .owner .accepted, aMember "m2" "caro" .member .requested]] := by
    decide +kernel
  have hsame : Indistinguishable "beto" (cafePlan (cafe "San Martín 100" 34896))
      (busierPlan (cafe "Mitre 5" 34905)) := by
    refine ⟨?_, by decide, by decide, by decide⟩
    rw [hplain, hbusier]
    refine .cons (.inr ?_) .nil
    exact ⟨rfl, rfl, .cons ⟨rfl, rfl, ⟨"Mitre 5", _, none, rfl⟩,
      by decide +kernel, rfl⟩ .nil, by decide, by decide, by decide, by decide, by decide, by decide⟩
  exact (redaction_hides "beto" _ _ hsame).1 betosEnv "g1"

end Feca.Social
