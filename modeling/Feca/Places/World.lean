import Feca.Concurrency.Part
import Feca.Places.Resolve

/-! # The world of the places service

The database with its curations, the answers of autocomplete in the cache, and the
calls that write places. A write leaves the cached answers of its process behind,
and those only.
-/

namespace Feca.Places

open Concurrency Concurrency.Prog Content Relational Social

/-! ## What is stored -/

structure AutocompleteItem where
  id : String
  source : PlaceSource
  sourcePlaceId : Option String
  placeId : Option Id
  name : String
  address : String
  city : String
  lat : Option Rat := none
  lng : Option Rat := none
  categories : List String
  coverPhotoUrl : Option String := none
  ratingExternal : Option Rat := none
  ratingCountExternal : Option Int := none
  distanceMeters : Option Rat := none
  alreadyInFeca : Bool
  deriving DecidableEq, Repr

structure AutocompleteFallback where
  allowManual : Bool
  prefillName : String
  deriving DecidableEq, Repr

structure AutocompletePayload where
  items : List AutocompleteItem
  fallback : AutocompleteFallback
  providerAvailable : Bool
  deriving DecidableEq, Repr

/-- A row of `PlaceCuration`, all of it. -/
structure PlaceCurationRecord extends PlaceCuration where
  label : Option String := none
  createdById : Id
  createdAt : Date
  deriving DecidableEq, Repr

instance : UniqueColumns PlaceCurationRecord where
  conflicts a b := UniqueColumns.conflicts a.toPlaceCuration b.toPlaceCuration
  conflicts_self a := UniqueColumns.conflicts_self a.toPlaceCuration
  conflicts_symm a b := UniqueColumns.conflicts_symm a.toPlaceCuration b.toPlaceCuration

/-- The database, the cache of answers, and in each process the version of its keys. -/
structure PlacesWorld where
  db : PlacesDb
  curations : Table PlaceCurationRecord
  cache : String → Option AutocompletePayload
  versions : String → Nat

abbrev WorldProg := Prog PlacesWorld Empty Failure

def dbPart : Part PlacesWorld PlacesDb where
  get w := w.db
  set db w := { w with db }
  get_set _ _ := rfl

/-! ## Calls that write places -/

/-- `bumpAutocompleteCacheNamespace`. -/
def bumpAutocompleteCacheNamespace (process : String) : WorldProg Unit :=
  stmt fun w => ⟨{ w with
    versions := Function.update w.versions process (w.versions process + 1) }, [], .ok ()⟩

/-- A place that is written leaves the answers of the process behind. -/
def bumping (process : String) (write : PlacesProg PlaceRecord) : WorldProg PlaceRecord := do
  let place ← write.onPart dbPart
  bumpAutocompleteCacheNamespace process
  pure place

section writes

variable (calls : ResolveCalls) (process : String)

/-- `resolve`, with what it does to the keys of the cache. -/
def PlacesProfileService.resolve (input : ResolvePlaceDto) : WorldProg (Option PlaceRecord) :=
  resolveWith calls (·.db) (bumping process) input

/-- What the city of a manual place is looked up in. -/
structure CityCalls extends ResolveCalls where
  /-- What the cache of cities has for the id. -/
  cachedCity : String → Option CityRecord
  getCityByPlaceId : String → Except Thrown GoogleCitySummary

def loadStoredCity (calls : CityCalls) (cityGooglePlaceId : String) : PlacesProg CityRecord := do
  match ← query fun s => s.cities.rows.find? (·.googlePlaceId == cityGooglePlaceId) with
  | some existing => pure existing
  | none =>
      if !calls.shouldUseGooglePlaces then
        .fail (.database (.error "City not found in local-only places mode"))
      else do
        let city ← awaiting (calls.getCityByPlaceId cityGooglePlaceId)
        upsertCitySummary calls.toResolveCalls city

def ensureStoredCityByGooglePlaceId (calls : CityCalls) (cityGooglePlaceId : String) :
    PlacesProg CityRecord :=
  match calls.cachedCity cityGooglePlaceId with
  | some city => pure city
  | none => do
      match ← (loadStoredCity calls cityGooglePlaceId).attempt with
      | .ok city => pure city
      | .error _ => .fail (.http (BadRequestException "Invalid cityGooglePlaceId"))

structure CreateManualPlaceDto where
  name : String
  address : String
  city : String
  cityGooglePlaceId : String
  lat : Option Rat := none
  lng : Option Rat := none

def manualPlaceInput (input : CreateManualPlaceDto) (cityId : Id) : UpsertPlaceInput where
  source := .manual
  sourcePlaceId := none
  name := input.name
  address := input.address
  city := input.city
  cityId := some cityId
  lat := input.lat
  lng := input.lng
  categories := []
  ratingExternal := none
  ratingCountExternal := none
  phone := none
  website := none
  openingHours := some []
  googleMapsUri := none
  coverPhotoRef := none
  coverPhotoUrl := none
  lastSyncedAt := none

def createManualPlace (calls : CityCalls) (input : CreateManualPlaceDto) : WorldProg PlaceRecord :=
  bumping process do
    let city ← ensureStoredCityByGooglePlaceId calls input.cityGooglePlaceId
    upsertPlace calls.toResolveCalls (manualPlaceInput input city.id)

end writes

-- To match a goal about it, Lean would otherwise run it.
attribute [irreducible] PlacesProfileService.resolve

end Feca.Places
