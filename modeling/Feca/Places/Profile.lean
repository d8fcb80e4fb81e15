import Feca.Places.Summary

/-! # The page of a place

`PlacesProfileService.getPlaceProfile` joins what Google answers of a place with
what the database has: its stored columns, its latest reviews and its social
context. Without Google the stored place stands alone.
-/

namespace Feca.Places

open Concurrency Concurrency.Prog Content Relational Social

structure AccessTokenPayload where
  email : String
  sub : Id
  deriving DecidableEq, Repr

structure AdminConfig where
  fecaAdminEmailSet : List String
  deriving DecidableEq, Repr

/-- Google as the services reach it: whether they use it, and what they get for
the details of a place, out of the cache or not. -/
structure GooglePlaces where
  shouldUseGooglePlaces : Bool
  getCachedPlaceDetailView : String → Except Thrown GooglePlaceDetailView

structure PlaceProfile extends GooglePlaceDetailView where
  social : Option PlaceSocialContext := none
  hiddenFromApp : Option Bool := none
  deriving DecidableEq, Repr

def isFecaAdminEmail (env : PlacesEnv) (config : AdminConfig) (email : String) : Bool :=
  config.fecaAdminEmailSet.contains (env.toLowerCase (trim email))

/-- `place.findFirst` by source and id. -/
def getPlaceBySource (s : ContentDb) (source : PlaceSource) (sourcePlaceId : String) :
    Option PlaceRow :=
  (s.places.rows.map s.placeRow).find? fun place =>
    place.source == source && place.sourcePlaceId == some sourcePlaceId

/-- `listFecaReviews`: the latest visits to a place, whoever made them. -/
def listFecaReviews (s : ContentDb) (placeId : Id) (limit : Nat) : List VisitWithRelations :=
  (s.findVisits (·.placeId == placeId)).take limit

/-- The place a profile is asked for: by its Google id, or by its own. -/
def findLocalPlace (googlePlaceId : String) : ContentProg (Option PlaceRow) := do
  match ← query fun s => getPlaceBySource s .google (normalizeGooglePlaceId googlePlaceId) with
  | some place => pure (some place)
  | none => query fun s => s.findPlaceRow googlePlaceId

def reviewsOf (env : PlacesEnv) : Option PlaceRow → ContentProg (List FecaPlaceReview)
  | none => pure []
  | some place => do
      let visits ← query fun s => listFecaReviews s place.id 20
      pure (visits.map (mapVisitToFecaReview env))

def socialContextOf (env : PlacesEnv) (viewerId : Id) :
    Option PlaceRow → ContentProg (Option PlaceSocialContext)
  | none => pure none
  | some place => some <$> getPlaceSocialContext env.toContentEnv viewerId place.id

/-- Google's details, completed by the stored ones. -/
def completeDetail (detail : GooglePlaceDetailView) (storedDetail : Option GooglePlaceDetailView) :
    GooglePlaceDetailView :=
  match storedDetail with
  | none => detail
  | some stored =>
      { detail with
        rating := detail.rating.or stored.rating
        userRatingCount := detail.userRatingCount.or stored.userRatingCount
        photoUrl := detail.photoUrl.or stored.photoUrl
        photos := if detail.photos.length > 0 then detail.photos else stored.photos
        openingHours := detail.openingHours.or stored.openingHours }

/-- The body of the `try`: the profile Google has an answer for. -/
def googleProfile (env : PlacesEnv) (google : GooglePlaces) (viewerId : Id) (isAdmin : Bool)
    (normalizedGooglePlaceId : String) (localPlace : Option PlaceRow)
    (fecaReviews : List FecaPlaceReview) : ContentProg PlaceProfile :=
  match google.getCachedPlaceDetailView normalizedGooglePlaceId with
  | .error e => .fail (.database e)
  | .ok detail => do
      let social ← socialContextOf env viewerId localPlace
      pure
        { completeDetail detail (localPlace.map fun place =>
            mapStoredPlaceToDetail place normalizedGooglePlaceId fecaReviews) with
          fecaReviews := some fecaReviews
          social
          hiddenFromApp := if isAdmin then some (localPlace.any (·.hiddenFromApp)) else none }

def storedProfile (env : PlacesEnv) (viewerId : Id) (isAdmin : Bool)
    (normalizedGooglePlaceId : String) (localPlace : Option PlaceRow)
    (fecaReviews : List FecaPlaceReview) : ContentProg PlaceProfile :=
  match localPlace with
  | none => .fail (.http (NotFoundException "Place not found"))
  | some place => do
      let social ← getPlaceSocialContext env.toContentEnv viewerId place.id
      pure
        { mapStoredPlaceToDetail place normalizedGooglePlaceId fecaReviews with
          social := some social
          hiddenFromApp := if isAdmin then some place.hiddenFromApp else none }

/-- The `try` block, where Google is used at all. -/
def tryGoogle (env : PlacesEnv) (google : GooglePlaces) (viewerId : Id) (isAdmin : Bool)
    (normalizedGooglePlaceId : String) (localPlace : Option PlaceRow)
    (fecaReviews : List FecaPlaceReview) : ContentProg (Except Failure PlaceProfile) :=
  if google.shouldUseGooglePlaces then
    (googleProfile env google viewerId isAdmin normalizedGooglePlaceId localPlace
      fecaReviews).attempt
  else pure (.error (.database .other))

/-- What follows once the reviews are read. -/
def profileBody (env : PlacesEnv) (google : GooglePlaces) (viewerId : Id) (isAdmin : Bool)
    (normalizedGooglePlaceId : String) (localPlace : Option PlaceRow)
    (fecaReviews : List FecaPlaceReview) : ContentProg PlaceProfile := do
  match ← tryGoogle env google viewerId isAdmin normalizedGooglePlaceId localPlace fecaReviews with
  | .ok profile => pure profile
  | .error _ => storedProfile env viewerId isAdmin normalizedGooglePlaceId localPlace fecaReviews

def getPlaceProfile (env : PlacesEnv) (config : AdminConfig) (google : GooglePlaces)
    (viewer : AccessTokenPayload) (googlePlaceId : String) : ContentProg PlaceProfile := do
  let localPlace ← findLocalPlace googlePlaceId
  let isAdmin := isFecaAdminEmail env config viewer.email
  if localPlace.any (·.hiddenFromApp) && !isAdmin then
    .fail (.http (NotFoundException "Place not found"))
  else
    let fecaReviews ← reviewsOf env localPlace
    profileBody env google viewer.sub isAdmin (normalizeGooglePlaceId googlePlaceId) localPlace
      fecaReviews

end Feca.Places
