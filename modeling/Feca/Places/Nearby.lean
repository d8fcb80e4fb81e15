import Feca.Places.NearbyRanking
import Feca.Places.Profile

/-! # Nearby places

`PlacesNearbyService.nearby` takes a pool of places through its filters, ranks
what is left, sets the city's curated places in front and presents the list. A
request reads from the database, the cache and Google; what they answer is a
record here, so that nothing is assumed of it.
-/

namespace Feca.Places

open Collections Content Social

inductive ViewerRadarPlaceState
  | neutral
  | excludeFromRadar
  | remind (chip : String)
  deriving DecidableEq, Repr

inductive ExploreIntent
  | openNow
  | work2h
  | brunchLong
  | solo
  | firstDate
  | snackFast
  | reading
  | group4
  deriving DecidableEq, Repr

/-- The fields a list depends on; the others act through what is read. -/
structure GetNearbyPlacesQuery where
  lat : Option Rat := none
  lng : Option Rat := none
  query : Option String := none
  type : Option String := none
  variant : Option NearbyVariant := none
  rotate : Option Rat := none
  limit : Rat := 20

structure ExploreContextQuery where
  intent : ExploreIntent
  lat : Option Rat := none
  lng : Option Rat := none
  limit : Rat := 12

structure NearbyConfig where
  googlePlacePhotosHomeEnabled : Bool
  googlePlacePhotosHomeLimit : Int
  googlePlacesLocalOnly : Bool

/-- What one request reads. -/
structure NearbyReads where
  userCoordinates : Option (Rat × Rat)
  /-- The city whose curations count. -/
  cityId : Option Id
  /-- The places around, from the cache, from Google or else from the database. -/
  googlePool : List GooglePlaceSummary
  hiddenGoogleIds : OrderedSet String
  /-- `buildNearbyCandidatePool`. -/
  candidatePool : List GooglePlaceSummary → List GooglePlaceSummary
  curationSignals : CurationSignals
  curationRows : List CurationRow
  cityPickRows : List PlaceRow
  networkSignals : OrderedMap String PlaceSignals
  viewerRadar : OrderedMap String ViewerRadarPlaceState
  fecaQualityByGoogleId : OrderedMap String FecaPlaceQualityStats
  recommendedBadges : OrderedMap String String
  baseScore : GooglePlaceSummary → Rat
  hasPersonalization : Bool

structure NearbyPlaceView where
  googlePlaceId : String
  name : String
  address : String
  lat : Rat
  lng : Rat
  googleMapsUri : Option String
  rating : Option Rat
  userRatingCount : Option Int
  types : List String
  primaryType : Option String
  photoUrl : Option String
  openNow : Option Bool
  openingChip : Option String := none
  socialChips : Option (List String) := none
  friendSocialRows : Option (List NearbyFriendSocialRow) := none
  viewerVisitReminderChip : Option String := none
  fecaRecommendedBadge : Option String := none

/-! ## Photos and opening -/

def shouldIncludeNearbyPhotos (config : NearbyConfig) : Bool :=
  config.googlePlacePhotosHomeEnabled && decide (config.googlePlacePhotosHomeLimit > 0)

def shouldServeStoredNearbyPhotos (config : NearbyConfig) : Bool := config.googlePlacesLocalOnly

def getNearbyPhotoLimit (config : NearbyConfig) : Int :=
  if shouldIncludeNearbyPhotos config then config.googlePlacePhotosHomeLimit
  else if shouldServeStoredNearbyPhotos config then 999
  else 0

/-- The prioritized places before the others. -/
def prioritized (priority : String → Bool) (places : List GooglePlaceSummary) :
    List GooglePlaceSummary :=
  places.filter (fun place => priority place.googlePlaceId) ++
    places.filter fun place => !priority place.googlePlaceId

def addPhoto (google : GooglePlaces) (photoById : OrderedMap String String)
    (place : GooglePlaceSummary) : OrderedMap String String :=
  match google.getCachedPlaceDetailView place.googlePlaceId with
  | .error _ => photoById
  | .ok detail =>
    match detail.photoUrl.bind orNull with
    | none => photoById
    | some photoUrl => photoById.set place.googlePlaceId photoUrl

def withPhoto (photoById : OrderedMap String String) (place : GooglePlaceSummary) :
    GooglePlaceSummary :=
  match photoById.get place.googlePlaceId with
  | none => place
  | some photoUrl => { place with photoUrl := some photoUrl }

def hydrateMissingNearbyPhotos (config : NearbyConfig) (google : GooglePlaces)
    (priority : String → Bool) (places : List GooglePlaceSummary) : List GooglePlaceSummary :=
  if getNearbyPhotoLimit config ≤ 0 ∨ google.shouldUseGooglePlaces = false then places
  else
    let toHydrate := ((prioritized priority places).filter fun place =>
      (place.photoUrl.bind orNull).isNone && place.googlePlaceId != "").take
        (getNearbyPhotoLimit config).toNat
    places.map (withPhoto (toHydrate.foldl (addPhoto google) .empty))

structure OpeningPatch where
  openNow : Option Bool
  openingWeekdayLines : Option (List String)

def addOpening (google : GooglePlaces) (patches : OrderedMap String OpeningPatch)
    (place : GooglePlaceSummary) : OrderedMap String OpeningPatch :=
  if google.shouldUseGooglePlaces then
    match google.getCachedPlaceDetailView place.googlePlaceId with
    | .error _ => patches
    | .ok detail => patches.set place.googlePlaceId
        { openNow := detail.openNow
          openingWeekdayLines := detail.openingWeekdayLines.or place.openingWeekdayLines }
  else patches

def withOpening (patches : OrderedMap String OpeningPatch) (place : GooglePlaceSummary) :
    GooglePlaceSummary :=
  match patches.get place.googlePlaceId with
  | none => place
  | some patch =>
    { place with
      openNow := patch.openNow
      openingWeekdayLines := patch.openingWeekdayLines }

/-- The state of the places Google has not answered yet, as far as the budget goes. -/
def hydrateMissingOpenNow (google : GooglePlaces) (priority : String → Bool) (budget : Rat)
    (places : List GooglePlaceSummary) : List GooglePlaceSummary :=
  let toHydrate := sliceTo budget <| (prioritized priority places).filter fun place =>
    place.openNow.isNone && place.googlePlaceId != ""
  places.map (withOpening (toHydrate.foldl (addOpening google) .empty))

/-! ## The views -/

def MAX_VISIBLE_RECOMMENDED_BADGES : Nat := 3

def buildNearbyOpeningChip : Option Bool → Option String
  | some true => some "Abierto ahora"
  | some false => some "Cerrado ahora"
  | none => none

def nonEmpty {α : Type} (xs : List α) : Option (List α) := if xs.length > 0 then some xs else none

def reminderChip : Option ViewerRadarPlaceState → Option String
  | some (.remind chip) => some chip
  | _ => none

/-- A badge while few are shown. -/
def badgeFor (reads : NearbyReads) (badgesShown : Nat) (googlePlaceId : String) : Option String :=
  if badgesShown < MAX_VISIBLE_RECOMMENDED_BADGES ∧ reads.cityId.bind orNull ≠ none then
    (reads.recommendedBadges.get googlePlaceId).bind orNull
  else none

def presentPlace (config : NearbyConfig) (reads : NearbyReads) (priority : String → Bool)
    (index badgesShown : Nat) (place : GooglePlaceSummary) : NearbyPlaceView :=
  let signals := (reads.networkSignals.get place.googlePlaceId).getD {}
  let keepPhoto :=
    (shouldServeStoredNearbyPhotos config && (place.photoUrl.bind orNull).isSome) ||
      decide ((index : Int) < getNearbyPhotoLimit config) || priority place.googlePlaceId
  { googlePlaceId := place.googlePlaceId
    name := place.name
    address := place.address
    lat := place.lat
    lng := place.lng
    googleMapsUri := place.googleMapsUri
    rating := place.rating
    userRatingCount := place.userRatingCount
    types := place.types
    primaryType := place.primaryType
    photoUrl := if keepPhoto then place.photoUrl else none
    openNow := place.openNow
    openingChip := buildNearbyOpeningChip place.openNow
    socialChips := nonEmpty signals.chips
    friendSocialRows := nonEmpty signals.friendRows
    viewerVisitReminderChip := reminderChip (reads.viewerRadar.get place.googlePlaceId)
    fecaRecommendedBadge := badgeFor reads badgesShown place.googlePlaceId }

def presentFrom (config : NearbyConfig) (reads : NearbyReads) (priority : String → Bool) :
    Nat → Nat → List GooglePlaceSummary → List NearbyPlaceView
  | _, _, [] => []
  | index, badgesShown, place :: places =>
    let view := presentPlace config reads priority index badgesShown place
    view :: presentFrom config reads priority (index + 1)
      (badgesShown + view.fecaRecommendedBadge.toList.length) places

def presentNearbyPlaces (config : NearbyConfig) (reads : NearbyReads) (priority : String → Bool)
    (places : List GooglePlaceSummary) : List NearbyPlaceView :=
  presentFrom config reads priority 0 0 places

/-! ## The request -/

/-- `query?.trim()`, unless it is empty. -/
def GetNearbyPlacesQuery.text (input : GetNearbyPlacesQuery) : Option String :=
  (input.query.map trim).bind orNull

def resolveViewerCoordinates (reads : NearbyReads) (input : GetNearbyPlacesQuery) :
    Option (Rat × Rat) :=
  match input.lat, input.lng with
  | some lat, some lng => some (lat, lng)
  | _, _ => reads.userCoordinates

def GetNearbyPlacesQuery.ranking (input : GetNearbyPlacesQuery) (coords : Rat × Rat) :
    NearbyRankingInput where
  lat := coords.1
  lng := coords.2
  limit := input.limit
  type := input.type
  variant := input.variant
  rotate := input.rotate

def hiddenLeftOut (reads : NearbyReads) (places : List GooglePlaceSummary) :
    List GooglePlaceSummary :=
  places.filter fun place => !reads.hiddenGoogleIds.has place.googlePlaceId

/-- The curations of the city, if there is one. -/
def cityRows (reads : NearbyReads) : List CurationRow :=
  if reads.cityId.bind orNull = none then [] else reads.curationRows

def citySignals (reads : NearbyReads) : CurationSignals :=
  if reads.cityId.bind orNull = none then .empty else reads.curationSignals

def candidatesOf (reads : NearbyReads) (input : GetNearbyPlacesQuery) : List GooglePlaceSummary :=
  if input.text.isSome then hiddenLeftOut reads reads.googlePool
  else reads.candidatePool (hiddenLeftOut reads reads.googlePool)

def visibleCandidatesOf (reads : NearbyReads) (input : GetNearbyPlacesQuery) :
    List GooglePlaceSummary :=
  if input.text.isNone ∧ 0 < (cityRows reads).length then
    hiddenLeftOut reads (mergeCityCurationsIntoNearbyCandidates
      (hiddenLeftOut reads (candidatesOf reads input)) (cityRows reads))
  else hiddenLeftOut reads (candidatesOf reads input)

def networkBoost (reads : NearbyReads) (googlePlaceId : String) : Int :=
  ((reads.networkSignals.get googlePlaceId).map (·.boost)).getD 0

def openCandidates (google : GooglePlaces) (reads : NearbyReads) (input : GetNearbyPlacesQuery) :
    List GooglePlaceSummary :=
  (hydrateMissingOpenNow google (citySignals reads).curatedGoogleIds.has (max (input.limit * 4) 20)
    (visibleCandidatesOf reads input)).filter fun place => place.openNow == some true

/-- The candidates of the variant. -/
def variantCandidates (google : GooglePlaces) (reads : NearbyReads)
    (input : GetNearbyPlacesQuery) : List GooglePlaceSummary :=
  if (visibleCandidatesOf reads input).length = 0 then []
  else if input.variant = some .homeOpenNow then openCandidates google reads input
  else if input.variant = some .homeFriendsLiked then
    (candidatesOf reads input).filter fun place => decide (networkBoost reads place.googlePlaceId > 0)
  else visibleCandidatesOf reads input

/-- The viewer has put a place off the radar. -/
def isExcluded (reads : NearbyReads) (googlePlaceId : String) : Bool :=
  reads.viewerRadar.get googlePlaceId == some .excludeFromRadar

/-- What is left to rank. -/
def workOf (google : GooglePlaces) (reads : NearbyReads) (input : GetNearbyPlacesQuery) :
    List GooglePlaceSummary :=
  (variantCandidates google reads input).filter fun place =>
    !isExcluded reads place.googlePlaceId

def cityPickPlaces (reads : NearbyReads) : List GooglePlaceSummary :=
  hiddenLeftOut reads <|
    if reads.cityId.bind orNull = none then []
    else reads.cityPickRows.map mapStoredPlaceToNearby

def rankingContext (reads : NearbyReads) : NearbyRankingContext where
  baseScore := reads.baseScore
  hasPersonalization := reads.hasPersonalization
  fecaQualityByGoogleId := reads.fecaQualityByGoogleId
  adminBoostByGoogleId := (citySignals reads).boosts
  curatedGoogleIds := (citySignals reads).curatedGoogleIds
  cityPickPlaces := cityPickPlaces reads

def shouldPrependAdmin (reads : NearbyReads) (input : GetNearbyPlacesQuery) : Bool :=
  input.text.isNone && decide (0 < (cityRows reads).length) &&
    input.variant != some .homeFriendsLiked && input.variant != some .onboardingPast

def rankedPlaces (env : RankingEnv) (google : GooglePlaces) (reads : NearbyReads) (userId : Id)
    (input : GetNearbyPlacesQuery) (coords : Rat × Rat) : List GooglePlaceSummary :=
  let work := workOf google reads input
  let ranking :=
    if input.text.isSome then sliceTo input.limit work
    else rankNearbyPlaceResults env userId (input.ranking coords) work (rankingContext reads)
  if shouldPrependAdmin reads input then
    prependAdminCuratedPlaces ranking (cityRows reads) input.limit
  else ranking

/-- `finalizeNearby`. -/
def finalizeNearby (env : RankingEnv) (config : NearbyConfig) (google : GooglePlaces)
    (reads : NearbyReads) (userId : Id) (input : GetNearbyPlacesQuery) (coords : Rat × Rat) :
    List NearbyPlaceView :=
  if (workOf google reads input).length = 0 then []
  else
    let priority := fun id => (citySignals reads).curatedGoogleIds.has id ||
      (citySignals reads).cityPickGoogleIds.has id
    presentNearbyPlaces config reads priority
      (hydrateMissingNearbyPhotos config google priority
        (rankedPlaces env google reads userId input coords))

def nearby (env : RankingEnv) (config : NearbyConfig) (google : GooglePlaces)
    (reads : NearbyReads) (userId : Id) (input : GetNearbyPlacesQuery) : List NearbyPlaceView :=
  match resolveViewerCoordinates reads input with
  | none => []
  | some coords => finalizeNearby env config google reads userId input coords

structure ExplorePlaceView extends NearbyPlaceView where
  reason : String

def exploreReasonLine (intent : ExploreIntent) (place : NearbyPlaceView) : String :=
  match intent with
  | .openNow => if place.openNow = some true then "Abierto ahora" else "Cerca para salir ya"
  | .work2h => "Cafe y foco para trabajar un rato"
  | .brunchLong => "Para brunch sin apuro"
  | .solo => "Comodo para ir solo"
  | .firstDate => "Buen tono para una primera cita"
  | .snackFast => "Sirve para una pausa rápida"
  | .reading => "Tranqui para leer"
  | .group4 => "Mejor para ir en grupo"

def ExploreContextQuery.nearby (input : ExploreContextQuery) : GetNearbyPlacesQuery where
  lat := input.lat
  lng := input.lng
  limit := input.limit
  variant := if input.intent = .openNow then some .homeOpenNow else none

def exploreContext (env : RankingEnv) (config : NearbyConfig) (google : GooglePlaces)
    (reads : NearbyReads) (userId : Id) (input : ExploreContextQuery) : List ExplorePlaceView :=
  (nearby env config google reads userId input.nearby).map fun place =>
    { place with reason := exploreReasonLine input.intent place }

end Feca.Places
