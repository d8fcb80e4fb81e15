import Feca.Paging.Keyset
import Feca.Plans.Service

/-! # Discovering plans

`PlansService.discover` and the listing under it: public plans that can be
joined and have an event to come, each by the first of those events, page by
page after the cursor.
-/

namespace Feca.Social

open Concurrency Concurrency.Prog Relational Paging

/-- The clock, the codecs and the text comparisons of a request. -/
structure DiscoverEnv where
  now : Date
  codec : CursorCodec
  localeCompare : String → String → Int
  containsInsensitive : String → String → Bool

structure DiscoverPlansQuery where
  city : Option String := none
  cityGooglePlaceId : Option String := none
  minLat : Option Rat := none
  maxLat : Option Rat := none
  minLng : Option Rat := none
  maxLng : Option Rat := none
  fromDate : Option String := none
  «from» : Option String := none
  toDate : Option String := none
  «to» : Option String := none
  limit : Option Rat := none
  cursor : Option String := none
  deriving DecidableEq, Repr

/-- `a || b` on optional text. -/
def either (a b : Option String) : Option String := (a.bind orNull).or (b.bind orNull)

/-! ## The listing -/

/-- The `eventWhere` of the repository. -/
structure EventWhere where
  city : Option String
  cityId : Option Id
  cityGooglePlaceId : Option String
  fromDate : Date
  toDate : Option Date
  minLat : Option Rat
  maxLat : Option Rat
  minLng : Option Rat
  maxLng : Option Rat
  deriving DecidableEq, Repr

/-- A coordinate within its bounds; without bounds nothing is asked of it. -/
def withinBounds (low high value : Option Rat) : Bool :=
  (low.isNone && high.isNone) ||
    value.any fun v => low.all (· ≤ v) && high.all (v ≤ ·)

namespace SocialDb

def eventMatches (s : SocialDb) (contains : String → String → Bool) (eventWhere : EventWhere)
    (event : EventWithRelations) : Bool :=
  event.date ≥ eventWhere.fromDate && eventWhere.toDate.all (event.date ≤ ·) &&
    (event.status != .cancelled && event.status != .completed) &&
    ((eventWhere.cityId.bind orNull).all fun cityId => event.place.cityId == some cityId) &&
    ((eventWhere.city.bind orNull).all fun city => contains event.place.city (trim city)) &&
    ((eventWhere.cityGooglePlaceId.bind orNull).all fun googlePlaceId => s.cities.rows.any fun c =>
      event.place.cityId == some c.id && c.googlePlaceId == googlePlaceId) &&
    withinBounds eventWhere.minLat eventWhere.maxLat event.place.lat &&
    withinBounds eventWhere.minLng eventWhere.maxLng event.place.lng

/-- Every group with `planInclude`. -/
def allPlans (s : SocialDb) : List GroupWithRelations :=
  s.groups.rows.filterMap (s.withRelations planEventBefore planMemberBefore)

/-- The plan with only the events the query asks for. -/
def narrowed (s : SocialDb) (contains : String → String → Bool) (eventWhere : EventWhere)
    (plan : GroupWithRelations) : GroupWithRelations :=
  { plan with events := plan.events.filter (s.eventMatches contains eventWhere) }

/-- Public, open to more than invitations, and with an event the query asks for. -/
def isDiscoverable (s : SocialDb) (contains : String → String → Bool) (eventWhere : EventWhere)
    (plan : GroupWithRelations) : Bool :=
  plan.visibility == .«public» && plan.joinPolicy != .inviteOnly &&
    plan.events.any (s.eventMatches contains eventWhere)

/-- `listDiscoverablePlans`. -/
def discoverablePlans (s : SocialDb) (contains : String → String → Bool)
    (eventWhere : EventWhere) : List GroupWithRelations :=
  (s.allPlans.filter (s.isDiscoverable contains eventWhere)).map (s.narrowed contains eventWhere)

/-- `getUserCityId`. -/
def userCityId (s : SocialDb) (userId : Id) : Option Id := (s.findUser userId).bind (·.cityId)

end SocialDb

/-! ## A page -/

/-- A plan by the event it is listed with. -/
structure PlanRow where
  group : GroupWithRelations
  event : EventWithRelations

def PlanRow.key (row : PlanRow) : Cursor := ⟨row.event.date, row.group.id⟩

/-- `left.date.getTime() - right.date.getTime() || left.id.localeCompare(right.id)`. -/
def comparePlanCursor (localeCompare : String → String → Int) (left right : Cursor) : Int :=
  if left.date - right.date = 0 then localeCompare left.id right.id else left.date - right.date

/-- The plans with their first event, sorted. -/
def decorated (localeCompare : String → String → Int) (plans : List GroupWithRelations) :
    List PlanRow :=
  (plans.filterMap fun group => group.events.head?.map fun event => ⟨group, event⟩).insertionSort
    fun left right => comparePlanCursor localeCompare left.key right.key ≤ 0

def PlanRow.view (userId : Id) (followedIds : List Id) (row : PlanRow) : PlanView :=
  serializePlan row.group userId followedIds
    (row.group.members.any fun member => member.userId == userId && member.status == .accepted)
    (some row.event)

/-- Cut the rows after the cursor; a limit counts whole rows. -/
def discoveryPage (localeCompare : String → String → Int) (limit : Rat) (rows : List PlanRow)
    (cursor : Option Cursor) : Page Cursor PlanRow :=
  let found := rows.filter fun row =>
    cursor.all fun c => comparePlanCursor localeCompare row.key c > 0
  let page := found.take limit.floor.toNat
  ⟨page, if (found.length : Rat) > limit then page.getLast?.map (·.key) else none⟩

/-! ## The service -/

def MAX_DISCOVERY_LIMIT : Rat := 50

def DiscoverPlansQuery.pageLimit (query : DiscoverPlansQuery) : Rat :=
  min (query.limit.getD 20) MAX_DISCOVERY_LIMIT

/-- Both are there, and the first is greater. -/
def exceeds (low high : Option Rat) : Bool :=
  match low, high with
  | some low, some high => low > high
  | _, _ => false

/-- An invalid date compares to nothing. -/
def isLater (codec : CursorCodec) (a b : Option String) : Bool :=
  match a.bind codec.parseDate, b.bind codec.parseDate with
  | some a, some b => a > b
  | _, _ => false

def assertBounds (codec : CursorCodec) (query : DiscoverPlansQuery) : SocialProg Unit :=
  if exceeds query.minLat query.maxLat then
    throwHttp (BadRequestException "minLat must be less than maxLat")
  else if exceeds query.minLng query.maxLng then
    throwHttp (BadRequestException "minLng must be less than maxLng")
  else if isLater codec (either query.fromDate query.«from») (either query.toDate query.«to») then
    throwHttp (BadRequestException "fromDate must be before toDate")
  else pure ()

/-- The later of now and the date asked for. -/
def effectiveFrom (codec : CursorCodec) (now : Date) (query : DiscoverPlansQuery) : Date :=
  match (either query.fromDate query.«from»).bind codec.parseDate with
  | some requestedFrom => if requestedFrom > now then requestedFrom else now
  | none => now

/-- The viewer's own city is looked up only if the query names no place. -/
def viewerCity (userId : Id) (query : DiscoverPlansQuery) : SocialProg (Option Id) :=
  if query.city.bind orNull = none ∧ query.cityGooglePlaceId.bind orNull = none then
    Prog.query fun s => s.userCityId userId
  else pure none

def toDateArgument (codec : CursorCodec) (query : DiscoverPlansQuery) : SocialProg (Option Date) :=
  match either query.toDate query.«to» with
  | none => pure none
  | some value =>
      match parsePlanToDate codec value with
      | some date => pure (some date)
      | none => .fail (.database (.error "Provided Date object is invalid."))

def planCursorArgument (codec : CursorCodec) (cursor : Option String) :
    SocialProg (Option Cursor) :=
  match cursor.bind orNull with
  | none => pure none
  | some text =>
      match decodePlanCursor codec text with
      | .ok cursor => pure (some cursor)
      | .error exception => throwHttp exception

def DiscoverPlansQuery.eventWhere (query : DiscoverPlansQuery) (viewerCityId : Option Id)
    (fromDate : Date) (toDate : Option Date) : EventWhere where
  city := query.city
  cityId := viewerCityId
  cityGooglePlaceId := query.cityGooglePlaceId
  fromDate := fromDate
  toDate := toDate
  minLat := query.minLat
  maxLat := query.maxLat
  minLng := query.minLng
  maxLng := query.maxLng

def PlansService.discover (env : DiscoverEnv) (userId : Id) (query : DiscoverPlansQuery) :
    SocialProg (Page String PlanView) := do
  assertBounds env.codec query
  let viewerCityId ← viewerCity userId query
  let toDate ← toDateArgument env.codec query
  let eventWhere := query.eventWhere viewerCityId (effectiveFrom env.codec env.now query) toDate
  let rows ← Prog.query fun s => s.discoverablePlans env.containsInsensitive eventWhere
  let followedIds ← Prog.query fun s => s.followedIds userId
  let cursor ← planCursorArgument env.codec query.cursor
  pure ((discoveryPage env.localeCompare query.pageLimit (decorated env.localeCompare rows)
    cursor).map (encodePlanCursor env.codec) (PlanRow.view userId followedIds))

end Feca.Social
