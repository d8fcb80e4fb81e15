import Feca.Places.World

/-! # What admins do

They hide places and show them again, and curate them. A curation may hide its
place in the same call: the place is written first, and stays as it was written
when the curation is refused afterwards.
-/

namespace Feca.Places

open Concurrency Concurrency.Prog Content Relational Social

/-! ## Requests -/

structure CreatePlaceCurationDto where
  placeId : Option String := none
  googlePlaceId : Option String := none
  boostScore : Option Int := none
  isCityPick : Option Bool := none
  showRecommendedBadge : Option Bool := none
  label : Option String := none
  expiresAt : Option String := none
  hiddenFromApp : Option Bool := none

/-- A text that is absent stays; one that is `null` goes. -/
structure UpdatePlaceCurationDto where
  boostScore : Option Int := none
  isCityPick : Option Bool := none
  showRecommendedBadge : Option Bool := none
  label : Option (Option String) := none
  active : Option Bool := none
  expiresAt : Option (Option String) := none
  hiddenFromApp : Option Bool := none

structure SetPlaceVisibilityDto where
  placeId : Option String := none
  googlePlaceId : Option String := none
  hiddenFromApp : Bool

structure PlaceVisibility where
  placeId : Id
  googlePlaceId : Option String
  hiddenFromApp : Bool
  deriving DecidableEq, Repr

/-- One call of an admin: with the dates it reads, the id it generates, and whether
the user it is made by is stored. -/
structure AdminCalls extends ResolveCalls where
  parseDate : String → Option Date
  curationId : Id
  isStored : Id → Bool

section service

variable (calls : AdminCalls) (process : String)

/-! ## Places -/

/-- `place.id` of what may be `null`. -/
def idOf (place : Option PlaceRecord) : WorldProg Id :=
  match place with
  | some place => pure place.id
  | none => .fail (.database (.error "Cannot read properties of null (reading 'id')"))

def resolvePlaceId (placeId googlePlaceId : Option String) : WorldProg Id :=
  match (placeId.map trim).bind orNull, (googlePlaceId.map trim).bind orNull with
  | some placeId, _ => pure placeId
  | none, none => .fail (.http (BadRequestException
      "Indicá placeId o googlePlaceId para curar un lugar."))
  | none, some googlePlaceId => do
      idOf (← PlacesProfileService.resolve calls.toResolveCalls process
        { sourcePlaceId := googlePlaceId })

def setHiddenFromApp (placeId : Id) (hiddenFromApp : Bool) : PlacesProg PlaceRecord :=
  writing placeId fun places => places.modify (·.id == placeId) fun place =>
    { place with hiddenFromApp, updatedAt := calls.now }

def patchPlaceCity (placeId cityId : Id) (city : String) : PlacesProg PlaceRecord :=
  writing placeId fun places => places.modify (·.id == placeId) fun place =>
    { place with cityId := some cityId, city, updatedAt := calls.now }

def resolvePlaceCityId (place : PlaceRecord) : PlacesProg Id :=
  match (place.cityId.map trim).bind orNull, place.lat, place.lng with
  | some cityId, _, _ => pure cityId
  | none, some lat, some lng => do
      let city ← ensureStoredCityForCoordinates calls.toResolveCalls (some lat) (some lng)
      let _ ← patchPlaceCity calls place.id city.id city.name
      pure city.id
  | none, _, _ => .fail (.http (BadRequestException
      "No pudimos determinar la ciudad del lugar. Abrí su ficha en la app y reintentá."))

def setPlaceVisibility (body : SetPlaceVisibilityDto) : WorldProg PlaceVisibility := do
  let placeId ← resolvePlaceId calls process body.placeId body.googlePlaceId
  let place ← (setHiddenFromApp calls placeId body.hiddenFromApp).onPart dbPart
  pure ⟨place.id, place.sourcePlaceId, place.hiddenFromApp⟩

/-! ## Curations -/

def parseOptionalExpiresAt (value : Option String) : WorldProg (Option Date) :=
  match value.bind orNull with
  | none => pure none
  | some value =>
      match calls.parseDate value with
      | some date => pure (some date)
      | none => .fail (.http (BadRequestException "expiresAt debe ser una fecha ISO válida."))

/-- `Math.min(100, Math.max(0, boostScore))`. -/
def clampBoost (boostScore : Int) : Int := min 100 (max 0 boostScore)

/-- `placeCuration.create`. -/
def insertCuration (curation : PlaceCurationRecord) : WorldProg PlaceCurationRecord :=
  stmt fun w =>
    if w.db.places.rows.any (·.id == curation.placeId) &&
        curation.cityId.all (fun cityId => w.db.cities.rows.any (·.id == cityId)) &&
        calls.isStored curation.createdById then
      match w.curations.insert curation with
      | some curations => ⟨{ w with curations }, [], .ok curation⟩
      | none => ⟨w, [], .error (.database uniqueViolation)⟩
    else ⟨w, [], .error (.database foreignKeyViolation)⟩

def findCuration (id : Id) (w : PlacesWorld) : Option PlaceCurationRecord :=
  w.curations.rows.find? (·.id == id)

/-- The `hiddenFromApp` of a body, unless it is absent. -/
def hideIfSent (placeId : Id) : Option Bool → WorldProg Unit
  | none => pure ()
  | some hiddenFromApp => do
      let _ ← (setHiddenFromApp calls placeId hiddenFromApp).onPart dbPart
      pure ()

def CreatePlaceCurationDto.curation (body : CreatePlaceCurationDto)
    (adminUserId placeId cityId : Id) (expiresAt : Option Date) : PlaceCurationRecord :=
  let hide := body.hiddenFromApp.getD false
  { id := calls.curationId
    placeId := placeId
    cityId := some cityId
    boostScore := clampBoost (if hide then 0 else body.boostScore.getD 0)
    isCityPick := if hide then false else body.isCityPick.getD false
    showRecommendedBadge := if hide then false else body.showRecommendedBadge.getD false
    label := body.label
    expiresAt := expiresAt
    createdById := adminUserId
    createdAt := calls.now
    updatedAt := calls.now }

def createCuration (adminUserId : Id) (body : CreatePlaceCurationDto) :
    WorldProg PlaceCurationRecord := do
  let placeId ← resolvePlaceId calls process body.placeId body.googlePlaceId
  match ← query fun w => w.db.places.rows.find? (·.id == placeId) with
  | none => .fail (.http (NotFoundException "Lugar no encontrado."))
  | some place => do
      let cityId ← (resolvePlaceCityId calls place).onPart dbPart
      hideIfSent calls placeId body.hiddenFromApp
      let expiresAt ← parseOptionalExpiresAt calls body.expiresAt
      insertCuration calls (body.curation calls adminUserId placeId cityId expiresAt)

/-- The columns of an update; what is absent stays. -/
def UpdatePlaceCurationDto.write (body : UpdatePlaceCurationDto) (expiresAt : Option (Option Date))
    (curation : PlaceCurationRecord) : PlaceCurationRecord :=
  let hide := body.hiddenFromApp == some true
  { curation with
    boostScore := ((if hide then some 0 else body.boostScore).map clampBoost).getD
      curation.boostScore
    isCityPick := (if hide then some false else body.isCityPick).getD curation.isCityPick
    showRecommendedBadge :=
      (if hide then some false else body.showRecommendedBadge).getD curation.showRecommendedBadge
    label := body.label.getD curation.label
    active := (if hide then some false else body.active).getD curation.active
    expiresAt := expiresAt.getD curation.expiresAt
    updatedAt := calls.now }

/-- `placeCuration.update`. -/
def writeCuration (id : Id) (body : UpdatePlaceCurationDto) (expiresAt : Option (Option Date)) :
    WorldProg PlaceCurationRecord :=
  stmt fun w =>
    match findCuration id w with
    | none => ⟨w, [], .error (.database recordNotFound)⟩
    | some curation =>
        let curations := w.curations.update (·.id == id) (body.write calls expiresAt)
        ⟨{ w with curations }, [], .ok (body.write calls expiresAt curation)⟩

def curationNotFound : Failure := .http (NotFoundException "Curación no encontrada.")

def updateCuration (id : Id) (body : UpdatePlaceCurationDto) : WorldProg PlaceCurationRecord := do
  match ← query (findCuration id) with
  | none => .fail curationNotFound
  | some existing => do
      hideIfSent calls existing.placeId body.hiddenFromApp
      match body.expiresAt with
      | none => writeCuration calls id body none
      | some value => do
          let expiresAt ← parseOptionalExpiresAt calls value
          writeCuration calls id body (some expiresAt)

def deleteCuration (id : Id) : WorldProg Unit := do
  match ← query (findCuration id) with
  | none => .fail curationNotFound
  | some _ => stmt fun w =>
      match findCuration id w with
      | none => ⟨w, [], .error (.database recordNotFound)⟩
      | some _ => ⟨{ w with curations := w.curations.erase (·.id == id) }, [], .ok ()⟩

end service

end Feca.Places
