import Feca.Content.Settings
import Feca.Plans.Presenter

/-! # The feed

`SocialFeedService.getFeed` and the repository under it. Four modes list visits
of others: each reads a pool of recent visits, ranks it in memory and answers a
slice of the ranking, together with the total its mode promises.
-/

namespace Feca.Content

open Concurrency Concurrency.Prog Relational Social

/-! ## Scores -/

def TASTE_IDS : List String :=
  ["small_bar", "specialty_over_brunch", "reading_spots", "wifi_outlets", "terrace", "indoor_table",
    "quiet", "bright_light"]

/-- What one taste adds for the tags of a visit. -/
def tasteTagScore (tags : List String) (id : String) : Rat :=
  if !TASTE_IDS.contains id then 0
  else
    (if id == "reading_spots" && (tags.contains "reading" || tags.contains "cafe") then 10 else 0) +
    (if id == "wifi_outlets" && tags.contains "work" then 8 else 0) +
    (if id == "specialty_over_brunch" && (tags.contains "brunch" || tags.contains "cafe") then 9
      else 0) +
    (if id == "quiet" && tags.contains "quiet" then 8 else 0)

def scoreTasteAgainstVisitTags (env : ContentEnv) (tasteIds visitTags : List String) : Rat :=
  if tasteIds.length = 0 ∨ visitTags.length = 0 then 0
  else (tasteIds.map (tasteTagScore (visitTags.map env.toLowerCase))).sum

/-- `ms / (1000 * 60 * 60 * 24)`. -/
def days (ms : Int) : Rat := ms / 86400000

def tasteOverlap (viewerTasteIds authorTaste : List String) : Nat :=
  (viewerTasteIds.filter authorTaste.contains).length

def buildNetworkFeedScore (env : ContentEnv) (viewerTasteIds : List String)
    (visit : VisitWithRelations) : Rat :=
  let age := days (env.now - visit.visitedAt)
  visit.rating * 4 +
    (match visit.wouldReturn with
      | some .yes => 28
      | some .maybe => 12
      | _ => 0) +
    tasteOverlap viewerTasteIds visit.user.tastePreferenceIds * 12 +
    scoreTasteAgainstVisitTags env viewerTasteIds visit.tags +
    (if age ≤ 7 then 14 else if age ≤ 21 then 8 else if age ≤ 45 then 4 else 0)

structure Location where
  lat : Rat
  lng : Rat
  deriving DecidableEq, Repr

/-- The distance to a place, where it is known. -/
def distanceTo (env : ContentEnv) (viewerLocation : Location) (place : PlaceRow) : Option Rat :=
  place.lat.bind fun lat => place.lng.map fun lng =>
    env.distanceInMeters viewerLocation.lat viewerLocation.lng lat lng

def buildNearbyScore (env : ContentEnv) (viewerLocation : Location) (visit : VisitWithRelations)
    (viewerTasteIds : List String) : Rat :=
  let distance := (distanceTo env viewerLocation visit.place).getD 5000
  let ratingScore := visit.rating * 12
  let returnScore :=
    match visit.wouldReturn with
    | some .yes => 20
    | some .maybe => 8
    | _ => 0
  let recencyPenalty := days (env.now - visit.visitedAt) / 5
  200 - distance / 25 + ratingScore + returnScore - recencyPenalty +
    scoreTasteAgainstVisitTags env viewerTasteIds visit.tags

def buildNowScore (env : ContentEnv) (visit : VisitWithRelations) (viewerTasteIds : List String) :
    Rat :=
  let hour := env.getHours env.now
  let isSunday := env.getDay env.now == 0
  visit.rating * 10 +
    (match visit.wouldReturn with
      | some .yes => 18
      | some .maybe => 8
      | _ => 0) +
    (if 8 ≤ hour ∧ hour ≤ 17 ∧ visit.wifiQuality.getD 0 ≥ 4 then 18 else 0) +
    (if 8 ≤ hour ∧ hour ≤ 12 ∧ visit.tags.contains "brunch" then 16 else 0) +
    (if isSunday && visit.tags.contains "brunch" then 20 else 0) +
    (if visit.waitLevel.getD 5 ≤ 2 then 8 else 0) +
    (if visit.noiseLevel.getD 5 ≤ 2 then 6 else 0) +
    scoreTasteAgainstVisitTags env viewerTasteIds visit.tags

/-- `value.length` of a text: its UTF-16 code units. -/
def utf16Length (value : String) : Nat :=
  (value.toList.map fun c => if c.toNat ≤ 0xFFFF then 1 else 2).sum

def cityFeedScore (visit : VisitWithRelations) : Rat :=
  days visit.visitedAt + visit.rating * (5 / 2) + (if utf16Length visit.note > 80 then 4 else 0)

/-! ## The listings -/

inductive FeedMode
  | network
  | nearby
  | now
  | city
  deriving DecidableEq, Repr

structure FeedInput where
  limit : Nat
  offset : Nat
  mode : FeedMode
  lat : Option Rat := none
  lng : Option Rat := none
  cityIdOverride : Option Id := none
  deriving DecidableEq, Repr

structure FeedListing where
  total : Nat
  visits : List VisitWithRelations

def FeedListing.empty : FeedListing := ⟨0, []⟩

/-- `ranked.slice(input.offset, input.offset + input.limit).map((entry) => entry.item)`. -/
def sliceRanked (ranked : List (ScoredCandidate VisitWithRelations)) (input : FeedInput) :
    List VisitWithRelations :=
  ((ranked.drop input.offset).take input.limit).map (·.item)

def candidate (score : VisitWithRelations → Rat) (visit : VisitWithRelations) :
    RankedCandidate VisitWithRelations :=
  ⟨score visit, visit.id, visit⟩

/-- `settings: { is: { activityVisibility: … } }`: the author has settings, and
they say one of these. -/
def settingsAllow (visibilities : List ContentVisibility) (visit : VisitWithRelations) : Bool :=
  visit.user.settings.any fun row => visibilities.contains row.activityVisibility

def networkWhere (followedIds : List Id) (visit : VisitWithRelations) : Bool :=
  followedIds.contains visit.user.id && settingsAllow [.«public», .followers] visit

def networkPoolTake (input : FeedInput) : Nat :=
  min 500 (max 100 ((input.offset + input.limit) * 20))

def rankNetwork (env : ContentEnv) (userId : Id) (viewerTaste : List String)
    (pool : List VisitWithRelations) : List (ScoredCandidate VisitWithRelations) :=
  rankCandidatesWithRotation env (pool.map (candidate (buildNetworkFeedScore env viewerTaste)))
    { bucketHours := some 1
      jitterRatio := some (8 / 100)
      maxJitter := some 12
      seed := buildRankingSeed env userId "feed-network" none none
      topWindow := some pool.length }

def viewerTaste (userId : Id) : ContentProg (List String) :=
  query fun s => ((s.findUserRow userId).map (·.tastePreferenceIds)).getD []

def listNetworkFeed (env : ContentEnv) (userId : Id) (input : FeedInput) :
    ContentProg FeedListing := do
  let followedIds ← query fun s => s.followedIds userId
  if followedIds.length = 0 then pure .empty
  else
    let taste ← viewerTaste userId
    let pool ← query fun s => (s.findVisits (networkWhere followedIds)).take (networkPoolTake input)
    let total ← query fun s => s.countVisits (networkWhere followedIds)
    pure ⟨total, sliceRanked (rankNetwork env userId taste pool) input⟩

def cityWhere (userId targetCityId : Id) (visit : VisitWithRelations) : Bool :=
  visit.userId != userId && visit.place.cityId == some targetCityId &&
    settingsAllow [.«public»] visit

def cityPoolTake (input : FeedInput) : Nat :=
  min 600 (max (max ((input.offset + input.limit) * 18) (input.limit * 24)) 140)

def cityRotation (env : ContentEnv) (userId : Id) : DynamicRankingOptions where
  bucketHours := some 1
  jitterRatio := some (12 / 100)
  maxJitter := some 16
  seed := buildRankingSeed env userId "feed-city" none none

def rankCity (env : ContentEnv) (userId : Id) (limit : Nat) (pool : List VisitWithRelations) :
    List (ScoredCandidate VisitWithRelations) :=
  rankCandidatesWithRotation env (pool.map (candidate cityFeedScore))
    { cityRotation env userId with topWindow := some (min pool.length (max (limit * 8) 48)) }

/-- The city asked for, or the one of the profile. -/
def targetCityId (userId : Id) (input : FeedInput) : ContentProg (Option Id) :=
  match input.cityIdOverride.bind orNull with
  | some cityId => pure (some cityId)
  | none => query fun s => (s.findUserRow userId).bind fun user => user.cityId.bind orNull

def listCityFeed (env : ContentEnv) (userId : Id) (input : FeedInput) :
    ContentProg FeedListing := do
  match ← targetCityId userId input with
  | none => pure .empty
  | some cityId =>
      let pool ← query fun s => (s.findVisits (cityWhere userId cityId)).take (cityPoolTake input)
      let total ← query fun s => s.countVisits (cityWhere userId cityId)
      pure ⟨total, sliceRanked (rankCity env userId input.limit pool) input⟩

/-- The coordinates of the request, or those of the profile. -/
def viewerLocation (userId : Id) (input : FeedInput) : ContentProg (Option Location) :=
  match input.lat, input.lng with
  | some lat, some lng => pure (some ⟨lat, lng⟩)
  | _, _ => query fun s => (s.findUserRow userId).bind fun user =>
      user.lat.bind fun lat => user.lng.map fun lng => ⟨lat, lng⟩

def isVisitVisibleToViewer (viewerId visitUserId : Id) (settings : SocialSettingsView)
    (viewerFollowsTarget : Bool) : Bool :=
  viewerId == visitUserId || canViewContent settings.activityVisibility viewerFollowsTarget

/-- The visit passes the visibility setting of its author. -/
def visibleVisit (viewerId : Id) (followingIds : List Id) (visit : VisitWithRelations) : Bool :=
  isVisitVisibleToViewer viewerId visit.userId (normalizeSettings visit.user.settings)
    (followingIds.contains visit.userId)

def listVisibleRecentVisits (userId : Id) (take : Nat) : ContentProg (List VisitWithRelations) := do
  let followingIds ← query fun s => s.followedIds userId
  let visits ← query fun s => (s.findVisits fun _ => true).take take
  pure (visits.filter (visibleVisit userId followingIds))

def rankNearby (env : ContentEnv) (userId : Id) (limit : Nat) (location : Location)
    (viewerTaste : List String) (visits : List VisitWithRelations) :
    List (ScoredCandidate VisitWithRelations) :=
  rankCandidatesWithRotation env
    ((visits.filter fun visit => (distanceTo env location visit.place).any (· ≤ 3500)).map
      (candidate fun visit => buildNearbyScore env location visit viewerTaste))
    { bucketHours := some 1
      jitterRatio := some (1 / 10)
      maxJitter := some 14
      seed := buildRankingSeed env userId "feed-nearby" (some location.lat) (some location.lng)
      topWindow := some (max (limit * 4) 24) }

def listNearbyFeed (env : ContentEnv) (userId : Id) (input : FeedInput) :
    ContentProg FeedListing := do
  match ← viewerLocation userId input with
  | none => pure .empty
  | some location =>
      let taste ← viewerTaste userId
      let visits ← listVisibleRecentVisits userId 220
      let nearby := rankNearby env userId input.limit location taste visits
      pure ⟨nearby.length, sliceRanked nearby input⟩

def rankNow (env : ContentEnv) (userId : Id) (limit : Nat) (location : Option Location)
    (viewerTaste : List String) (visits : List VisitWithRelations) :
    List (ScoredCandidate VisitWithRelations) :=
  rankCandidatesWithRotation env
    ((visits.filter fun visit =>
        location.all fun location => (distanceTo env location visit.place).any (· ≤ 6000)).map
      (candidate fun visit => buildNowScore env visit viewerTaste))
    { bucketHours := some 1
      jitterRatio := some (9 / 100)
      maxJitter := some 10
      seed := match location with
        | some location =>
            buildRankingSeed env userId "feed-now" (some location.lat) (some location.lng)
        | none => userId ++ ":feed-now"
      topWindow := some (max (limit * 4) 24) }

def listNowFeed (env : ContentEnv) (userId : Id) (input : FeedInput) : ContentProg FeedListing := do
  let location ← viewerLocation userId input
  let taste ← viewerTaste userId
  let visits ← listVisibleRecentVisits userId 220
  let ranked := rankNow env userId input.limit location taste visits
  pure ⟨ranked.length, sliceRanked ranked input⟩

def listFeed (env : ContentEnv) (userId : Id) (input : FeedInput) : ContentProg FeedListing := do
  ensureUserSettings env 0 userId
  match input.mode with
  | .city => listCityFeed env userId input
  | .nearby => listNearbyFeed env userId input
  | .now => listNowFeed env userId input
  | .network => listNetworkFeed env userId input

/-! ## The service -/

structure FeedQuery where
  mode : FeedMode := .network
  limit : Nat := 20
  offset : Nat := 0
  cursor : Option String := none
  lat : Option Rat := none
  lng : Option Rat := none
  cityGooglePlaceId : Option String := none
  deriving DecidableEq, Repr

/-- The cities directory: the id of a stored city, or none where it throws. -/
structure CityDirectory where
  byGooglePlaceId : String → Option Id
  fromCoordinates : Rat → Rat → Option Id

def resolveOffset (env : ContentEnv) (query : FeedQuery) : Nat :=
  match query.cursor.bind orNull with
  | none => query.offset
  | some cursor =>
      match env.number cursor with
      | none => query.offset
      | some parsed => if parsed < 0 then query.offset else parsed.floor.toNat

def cityIdOverride (cities : CityDirectory) (query : FeedQuery) : Option Id :=
  if query.mode = .city then
    ((query.cityGooglePlaceId.bind orNull).bind cities.byGooglePlaceId).or
      (query.lat.bind fun lat => query.lng.bind fun lng => cities.fromCoordinates lat lng)
  else none

structure PlaceSummary where
  address : String
  googlePlaceId : Option String
  id : Id
  name : String
  photoUrl : Option String
  deriving DecidableEq, Repr

def serializePlaceSummary (place : PlaceRow) : PlaceSummary where
  address := place.address
  googlePlaceId := place.sourcePlaceId
  id := place.id
  name := place.name
  photoUrl := place.coverPhotoUrl

structure VisitView where
  createdAt : String
  hasParking : Option Bool
  id : Id
  note : String
  orderedItems : Option String
  petFriendly : Option Bool
  place : PlaceSummary
  placeDetailTags : Option (List String)
  photoUrls : List String
  priceTier : Option Int
  rating : Int
  tags : List String
  user : UserPublic
  visitedAt : String
  waitLevel : Option Int
  wifiQuality : Option Int
  noiseLevel : Option Int
  wouldReturn : Option VisitWouldReturn
  deriving DecidableEq, Repr

/-- `value.toISOString().slice(0, 10)`. -/
def formatDateOnly (env : ContentEnv) (value : Date) : String :=
  String.ofList ((env.toISOString value).toList.take 10)

def serializeVisit (env : ContentEnv) (visit : VisitWithRelations) : VisitView where
  createdAt := env.toISOString visit.createdAt
  hasParking := visit.hasParking
  id := visit.id
  note := visit.note
  orderedItems := visit.orderedItems
  petFriendly := visit.petFriendly
  place := serializePlaceSummary visit.place
  placeDetailTags := if visit.placeDetailTags.length > 0 then some visit.placeDetailTags else none
  photoUrls := visit.photoUrls
  priceTier := visit.priceTier
  rating := visit.rating
  tags := visit.tags
  user := serializeUserPublic visit.user.toUser
  visitedAt := formatDateOnly env visit.visitedAt
  waitLevel := visit.waitLevel
  wifiQuality := visit.wifiQuality
  noiseLevel := visit.noiseLevel
  wouldReturn := visit.wouldReturn

/-- Minutes on foot, two at least. -/
def walkingMinutes (distance : Rat) : Int := max 2 (distance / 80 + 1 / 2).floor

def buildFeedAppearanceReason (env : ContentEnv) (query : FeedQuery) (visit : VisitWithRelations)
    (viewerTasteIds : List String) : String :=
  let displayName := (orNull visit.user.displayName).getD visit.user.username
  let goodForWork := visit.wifiQuality.getD 0 ≥ 4
  let liked := visit.wouldReturn = some .yes ∨ visit.rating ≥ 4
  match query.mode with
  | .network =>
      if liked then displayName ++ " volvería"
      else if tasteOverlap viewerTasteIds visit.user.tastePreferenceIds ≥ 2 then
        displayName ++ " tiene gustos parecidos al tuyo"
      else if goodForWork then "Bueno para trabajar segun " ++ displayName
      else displayName ++ " paso por aca"
  | .nearby =>
      match query.lat.bind fun lat => query.lng.bind fun lng =>
          distanceTo env ⟨lat, lng⟩ visit.place with
      | none => "Cerca tuyo"
      | some distance =>
          let onFoot := "A " ++ toString (walkingMinutes distance) ++ " min caminando"
          if goodForWork then onFoot ++ " · bueno para trabajar"
          else if visit.noiseLevel.getD 5 ≤ 2 then onFoot ++ " · tranqui para leer"
          else onFoot
  | .city =>
      if liked then displayName ++ " recomienda un lugar en tu ciudad"
      else if goodForWork then
        displayName ++ " fue a " ++ visit.place.name ++ " y lo recomienda para trabajar"
      else displayName ++ " reseño un lugar en tu ciudad"
  | .now =>
      if env.getDay env.now = 0 ∧ visit.tags.contains "brunch" then
        "Muy elegido para brunch de domingo"
      else if goodForWork then "Abierto ahora y bueno para trabajar"
      else if visit.waitLevel.getD 5 ≤ 2 then "Para una pausa rápida"
      else if visit.noiseLevel.getD 5 ≤ 2 then "Tranqui para ir ahora"
      else "Buen momento para ir ahora"

structure FeedItem where
  appearanceReason : String
  id : Id
  summary : Option String
  visit : VisitView
  deriving DecidableEq, Repr

structure FeedPage where
  items : List FeedItem
  nextCursor : Option String
  total : Nat
  deriving DecidableEq, Repr

def feedItem (env : ContentEnv) (query : FeedQuery) (viewerTasteIds : List String)
    (visit : VisitWithRelations) : FeedItem :=
  let appearanceReason := buildFeedAppearanceReason env query visit viewerTasteIds
  { appearanceReason
    id := visit.id
    summary := orNull appearanceReason
    visit := serializeVisit env visit }

def getFeed (env : ContentEnv) (cities : CityDirectory) (userId : Id) (query : FeedQuery) :
    ContentProg FeedPage := do
  let offset := resolveOffset env query
  let viewerTasteIds ← viewerTaste userId
  let listing ← listFeed env userId
    { lat := query.lat
      limit := query.limit
      lng := query.lng
      mode := query.mode
      offset
      cityIdOverride := cityIdOverride cities query }
  let items := listing.visits.map (feedItem env query viewerTasteIds)
  pure
    { items
      nextCursor :=
        if offset + items.length < listing.total then some (toString (offset + items.length))
        else none
      total := listing.total }

end Feca.Content
