import Feca.Concurrency.RelyGuarantee
import Feca.Places.Profile
import Feca.Relational.Upsert

/-! # Resolving a place

`PlacesProfileService.resolve` gives out the stored place of a Google id. One
without a cover is completed by what Google says of it, and one that is not
stored is stored; a service that does not use Google leaves both as they are.
-/

namespace Feca.Places

open Concurrency Concurrency.Prog Content Relational Social

/-- A row of `Place`, and the record of it: a column that is null is missing there. -/
structure PlaceRecord extends PlaceRow where
  phone : Option String := none
  website : Option String := none
  coverPhotoRef : Option String := none
  lastSyncedAt : Option Date := none
  createdAt : Date := 0
  deriving DecidableEq, Repr

structure CityRecord where
  id : Id
  googlePlaceId : String
  name : String
  displayName : String
  lat : Option Rat := none
  lng : Option Rat := none
  deriving DecidableEq, Repr

/-- `@id` on `Place`, and `@unique` on `sourcePlaceId`. -/
instance : UniqueColumns PlaceRecord where
  conflicts a b := a.id == b.id || (a.sourcePlaceId == b.sourcePlaceId &&
    (a.sourcePlaceId.isSome && b.sourcePlaceId.isSome))
  conflicts_self _ := by simp
  conflicts_symm a b := by
    rw [BEq.comm (a := a.id), BEq.comm (a := a.sourcePlaceId),
      Bool.and_comm a.sourcePlaceId.isSome]

/-- `@id` on `City`, and `@unique` on `googlePlaceId`. -/
instance : UniqueColumns CityRecord where
  conflicts a b := a.id == b.id || a.googlePlaceId == b.googlePlaceId
  conflicts_self _ := by simp
  conflicts_symm a b := by rw [BEq.comm (a := a.id), BEq.comm (a := a.googlePlaceId)]

structure PlacesDb where
  places : Table PlaceRecord
  cities : Table CityRecord
  place_city : ∀ p ∈ places.rows, ∀ cityId ∈ p.cityId, ∃ c ∈ cities.rows, c.id = cityId

abbrev PlacesProg := Prog PlacesDb Empty Failure

/-! ## What Google says -/

structure GoogleTextValue where
  text : Option String := none

structure GoogleLocation where
  latitude : Option Rat := none
  longitude : Option Rat := none

structure GoogleOpeningHours where
  weekdayDescriptions : Option (List String) := none

structure GooglePhoto where
  name : Option String := none

structure GooglePlace where
  id : Option String := none
  displayName : Option GoogleTextValue := none
  formattedAddress : Option String := none
  location : Option GoogleLocation := none
  rating : Option Rat := none
  userRatingCount : Option Int := none
  types : Option (List String) := none
  photos : Option (List GooglePhoto) := none
  currentOpeningHours : Option GoogleOpeningHours := none
  regularOpeningHours : Option GoogleOpeningHours := none
  websiteUri : Option String := none
  nationalPhoneNumber : Option String := none
  googleMapsUri : Option String := none

structure GoogleCitySummary where
  city : String
  cityGooglePlaceId : String
  displayName : String
  lat : Option Rat := none
  lng : Option Rat := none

/-- One call: the configuration, what comes back from outside, its clock, and the
ids it generates. -/
structure ResolveCalls where
  isEnabled : Bool
  googlePlacesLocalOnly : Bool
  fetchPlace : String → Except Thrown GooglePlace
  buildPhotoUrl : String → String
  getCachedReverseGeocodeCity : Rat → Rat → Except Thrown (Option GoogleCitySummary)
  reverseGeocodeCity : Rat → Rat → Except Thrown (Option GoogleCitySummary)
  setCachedValue : Except Thrown Unit
  now : Date
  placeId : Id
  cityId : Id

structure GooglePlaceDetails where
  sourcePlaceId : String
  name : String
  address : String
  lat : Option Rat
  lng : Option Rat
  categories : List String
  ratingExternal : Option Rat
  ratingCountExternal : Option Int
  phone : Option String
  website : Option String
  openingHours : Option (List String)
  googleMapsUri : Option String
  coverPhotoRef : Option String
  coverPhotoUrl : Option String
  lastSyncedAt : Date

namespace GooglePlace

variable (place : GooglePlace)

/-- `extractText(place.displayName)`. -/
def text : Option String := place.displayName.bind (·.text)

def latitude : Option Rat := place.location.bind (·.latitude)

def longitude : Option Rat := place.location.bind (·.longitude)

def weekdayDescriptions : Option (List String) :=
  (place.regularOpeningHours.bind (·.weekdayDescriptions)).or
    (place.currentOpeningHours.bind (·.weekdayDescriptions))

/-- `place.photos?.[0]?.name`. -/
def coverPhotoRef : Option String := (place.photos.bind (·.head?)).bind (·.name)

end GooglePlace

variable (calls : ResolveCalls)

def ResolveCalls.shouldUseGooglePlaces : Bool := calls.isEnabled && !calls.googlePlacesLocalOnly

/-- What `getPlaceDetails` makes of an answer. -/
def detailsOf (normalizedPlaceId : String) (place : GooglePlace) : GooglePlaceDetails where
  sourcePlaceId := place.id.getD normalizedPlaceId
  name := place.text.getD "Lugar sin nombre"
  address := place.formattedAddress.getD ""
  lat := place.latitude
  lng := place.longitude
  categories := place.types.getD []
  ratingExternal := place.rating
  ratingCountExternal := place.userRatingCount
  phone := place.nationalPhoneNumber
  website := place.websiteUri
  openingHours := place.weekdayDescriptions
  googleMapsUri := place.googleMapsUri
  coverPhotoRef := place.coverPhotoRef
  coverPhotoUrl := (place.coverPhotoRef.bind orNull).map calls.buildPhotoUrl
  lastSyncedAt := calls.now

def getPlaceDetails (placeId : String) : Except Thrown GooglePlaceDetails :=
  if calls.isEnabled then
    (calls.fetchPlace (normalizeGooglePlaceId placeId)).map
      (detailsOf calls (normalizeGooglePlaceId placeId))
  else .error (.error "GOOGLE_MAPS_API_KEY is not configured")

/-- What comes back from outside, or is thrown on. -/
def awaiting {α : Type} : Except Thrown α → PlacesProg α
  | .ok value => pure value
  | .error e => .fail (.database e)

section awaiting

variable {α β : Type} (k : α → PlacesProg β)

@[simp] theorem awaiting_ok_bind (value : α) : awaiting (.ok value) >>= k = k value := rfl

@[simp] theorem awaiting_error_bind (e : Thrown) :
    awaiting (.error e) >>= k = .fail (.database e) := rfl

end awaiting

def badGateway (message : String) : Failure := .http { status := 502, message := message }

/-! ## Cities -/

/-- Cities take the place of others without one that a place may name going away. -/
def PlacesDb.withCities (s : PlacesDb) (cities : Table CityRecord)
    (h : ∀ c ∈ s.cities.rows, ∃ d ∈ cities.rows, d.id = c.id) : PlacesDb where
  places := s.places
  cities := cities
  place_city := by
    intro p hp cityId hcity
    obtain ⟨c, hc, hid⟩ := s.place_city p hp cityId hcity
    obtain ⟨d, hd, hsame⟩ := h c hc
    exact ⟨d, hd, hsame.trans hid⟩

def GoogleCitySummary.update (summary : GoogleCitySummary) (city : CityRecord) : CityRecord :=
  { city with
    name := summary.city
    displayName := summary.displayName
    lat := summary.lat
    lng := summary.lng }

def GoogleCitySummary.create (summary : GoogleCitySummary) (id : Id) : CityRecord where
  id := id
  googlePlaceId := summary.cityGooglePlaceId
  name := summary.city
  displayName := summary.displayName
  lat := summary.lat
  lng := summary.lng

/-- `city.upsert` by the Google id. -/
def upsertCitySummary (summary : GoogleCitySummary) : PlacesProg CityRecord :=
  stmt fun s =>
    match s.cities.rows.find? (·.googlePlaceId == summary.cityGooglePlaceId) with
    | some city =>
        let cities := s.cities.update (·.googlePlaceId == summary.cityGooglePlaceId) summary.update
        have hids : ∀ c ∈ s.cities.rows, ∃ d ∈ cities.rows, d.id = c.id := fun c hc =>
          ⟨_, Table.mem_update.mpr ⟨c, hc, rfl⟩, by split <;> rfl⟩
        ⟨s.withCities cities hids, [], .ok (summary.update city)⟩
    | none =>
        match h : s.cities.insert (summary.create calls.cityId) with
        | some cities =>
            have hids : ∀ c ∈ s.cities.rows, ∃ d ∈ cities.rows, d.id = c.id := fun c hc =>
              ⟨c, by rw [(Table.insert_eq_some h).1]; exact List.mem_append_left _ hc, rfl⟩
            ⟨s.withCities cities hids, [], .ok (summary.create calls.cityId)⟩
        | none => ⟨s, [], .error (.database uniqueViolation)⟩

def ensureStoredCityForCoordinates : Option Rat → Option Rat → PlacesProg CityRecord
  | some lat, some lng =>
      if !calls.shouldUseGooglePlaces then
        .fail (badGateway "Local-only places mode cannot resolve city from coordinates")
      else do
        match ← awaiting (calls.getCachedReverseGeocodeCity lat lng) with
        | some city => upsertCitySummary calls city
        | none => do
            match ← awaiting (calls.reverseGeocodeCity lat lng) with
            | some city => do
                let () ← awaiting calls.setCachedValue
                upsertCitySummary calls city
            | none => .fail (badGateway "Could not resolve city for place")
  | _, _ => .fail (badGateway "Resolved place is missing coordinates")

/-! ## Places -/

/-- `place.findFirst` by source and id. -/
def PlacesDb.getPlaceBySource (s : PlacesDb) (source : PlaceSource) (sourcePlaceId : String) :
    Option PlaceRecord :=
  s.places.rows.find? fun place =>
    place.source == source && place.sourcePlaceId == some sourcePlaceId

structure UpsertPlaceInput where
  id : Option Id := none
  source : PlaceSource
  sourcePlaceId : Option String
  name : String
  address : String
  city : String
  cityId : Option Id
  lat : Option Rat
  lng : Option Rat
  categories : List String
  ratingExternal : Option Rat
  ratingCountExternal : Option Int
  phone : Option String
  website : Option String
  openingHours : Option (List String)
  googleMapsUri : Option String
  coverPhotoRef : Option String
  coverPhotoUrl : Option String
  lastSyncedAt : Option Date

/-- A row with the columns of `data`; the others stay, and `updatedAt` is now. -/
def UpsertPlaceInput.data (input : UpsertPlaceInput) (now : Date) (row : PlaceRecord) :
    PlaceRecord :=
  { row with
    source := input.source
    sourcePlaceId := input.sourcePlaceId
    name := input.name
    address := input.address
    city := input.city
    cityId := input.cityId
    lat := input.lat
    lng := input.lng
    categories := input.categories
    ratingExternal := input.ratingExternal
    ratingCountExternal := input.ratingCountExternal
    phone := input.phone
    website := input.website
    openingHours := input.openingHours.getD []
    googleMapsUri := input.googleMapsUri
    coverPhotoRef := input.coverPhotoRef
    coverPhotoUrl := input.coverPhotoUrl
    lastSyncedAt := input.lastSyncedAt
    updatedAt := now }

/-- A row that has nothing but its id yet. -/
def PlaceRecord.blank (id : Id) (now : Date) : PlaceRecord where
  id := id
  name := ""
  address := ""
  city := ""
  createdAt := now

/-- Places with a city that is stored, or a foreign key violation. -/
def PlacesDb.withPlaces (s : PlacesDb) (places : Table PlaceRecord) : Except Thrown PlacesDb :=
  if h : ∀ p ∈ places.rows, ∀ cityId ∈ p.cityId, ∃ c ∈ s.cities.rows, c.id = cityId then
    .ok { s with places, place_city := h }
  else .error foreignKeyViolation

/-- A write of the row with the id, which it gives back. -/
def writing (id : Id) (write : Table PlaceRecord → Option (Table PlaceRecord)) :
    PlacesProg PlaceRecord :=
  stmt fun s =>
    match write s.places with
    | none => ⟨s, [], .error (.database uniqueViolation)⟩
    | some places =>
        match s.withPlaces places, places.rows.find? (·.id == id) with
        | .ok t, some place => ⟨t, [], .ok place⟩
        | .ok _, none => ⟨s, [], .error (.database recordNotFound)⟩
        | .error e, _ => ⟨s, [], .error (.database e)⟩

def UpsertPlaceInput.findExisting (input : UpsertPlaceInput) (s : PlacesDb) : Option PlaceRecord :=
  match input.sourcePlaceId.bind orNull, input.id.bind orNull with
  | some sourcePlaceId, _ => s.getPlaceBySource input.source sourcePlaceId
  | none, some id => s.places.rows.find? (·.id == id)
  | none, none => none

def upsertPlace (input : UpsertPlaceInput) : PlacesProg PlaceRecord := do
  match ← query input.findExisting with
  | some existing =>
      writing existing.id fun places =>
        places.modify (·.id == existing.id) (input.data calls.now)
  | none =>
      let id := (input.id.bind orNull).getD calls.placeId
      writing id fun places => places.insert (input.data calls.now (.blank id calls.now))

/-! ## Resolving -/

structure ResolvePlaceDto where
  source : PlaceSource := .google
  sourcePlaceId : String

/-- What Google says of a stored place, and where it says nothing, what is stored.
The details of the client always have a name and an address, so the `??` behind
these never comes to what is stored. -/
def backfillInput (sourcePlaceId : String) (existing : PlaceRecord) (details : GooglePlaceDetails)
    (city : CityRecord) : UpsertPlaceInput where
  source := existing.source
  sourcePlaceId := some (existing.sourcePlaceId.getD sourcePlaceId)
  name := details.name
  address := details.address
  city := city.name
  cityId := some (existing.cityId.getD city.id)
  lat := details.lat.or existing.lat
  lng := details.lng.or existing.lng
  categories := if details.categories.length > 0 then details.categories else existing.categories
  ratingExternal := details.ratingExternal.or existing.ratingExternal
  ratingCountExternal := details.ratingCountExternal.or existing.ratingCountExternal
  phone := details.phone.or existing.phone
  website := details.website.or existing.website
  openingHours := some (((details.openingHours.filter (·.length > 0)).getD existing.openingHours))
  googleMapsUri := details.googleMapsUri.or existing.googleMapsUri
  coverPhotoRef := details.coverPhotoRef.or existing.coverPhotoRef
  coverPhotoUrl := details.coverPhotoUrl.or existing.coverPhotoUrl
  lastSyncedAt := some details.lastSyncedAt

/-- The `try` of a place that is stored without a cover. -/
def backfill (sourcePlaceId : String) (existing : PlaceRecord) : PlacesProg PlaceRecord := do
  let details ← awaiting (getPlaceDetails calls sourcePlaceId)
  let city ← ensureStoredCityForCoordinates calls (details.lat.or existing.lat)
    (details.lng.or existing.lng)
  upsertPlace calls (backfillInput sourcePlaceId existing details city)

def newPlaceInput (details : GooglePlaceDetails) (city : CityRecord) : UpsertPlaceInput where
  source := .google
  sourcePlaceId := some details.sourcePlaceId
  name := details.name
  address := details.address
  city := city.name
  cityId := some city.id
  lat := details.lat
  lng := details.lng
  categories := details.categories
  ratingExternal := details.ratingExternal
  ratingCountExternal := details.ratingCountExternal
  phone := details.phone
  website := details.website
  openingHours := details.openingHours
  googleMapsUri := details.googleMapsUri
  coverPhotoRef := details.coverPhotoRef
  coverPhotoUrl := details.coverPhotoUrl
  lastSyncedAt := some details.lastSyncedAt

/-- The `try` of a place that is not stored. -/
def storeNew (sourcePlaceId : String) : PlacesProg PlaceRecord := do
  let details ← awaiting (getPlaceDetails calls sourcePlaceId)
  let city ← ensureStoredCityForCoordinates calls details.lat details.lng
  upsertPlace calls (newPlaceInput details city)

/-- `resolve`, where the database is part of a store, and a place is written by `write`.
The place, `none` where the call gives out `null`. -/
def resolveWith {σ : Type} (db : σ → PlacesDb)
    (write : PlacesProg PlaceRecord → Prog σ Empty Failure PlaceRecord) (input : ResolvePlaceDto) :
    Prog σ Empty Failure (Option PlaceRecord) := do
  let sourcePlaceId := normalizeGooglePlaceId input.sourcePlaceId
  if sourcePlaceId = "" then
    .fail (.http { status := 400, message := "sourcePlaceId is required" })
  else
    let existing ← query fun s => (db s).getPlaceBySource input.source sourcePlaceId
    if ((existing.bind (·.coverPhotoUrl)).bind orNull).isSome ∨ !calls.shouldUseGooglePlaces then
      pure existing
    else
      match existing with
      | some existing => do
          match ← (write (backfill calls sourcePlaceId existing)).attempt with
          | .ok place => pure (some place)
          | .error _ => pure (some existing)
      | none =>
          if !calls.shouldUseGooglePlaces then
            .fail (.http (NotFoundException "Place not found in local-only places mode"))
          else do
            match ← (write (storeNew calls sourcePlaceId)).attempt with
            | .ok place => pure (some place)
            | .error _ => .fail (badGateway "Could not resolve place from Google Places")

def resolve (input : ResolvePlaceDto) : PlacesProg (Option PlaceRecord) :=
  resolveWith calls id id input

/-! ## What a call leaves in the tables -/

variable {calls} {s t : PlacesDb}

theorem getPlaceBySource_some {source : PlaceSource} {sourcePlaceId : String} {place : PlaceRecord}
    (h : s.getPlaceBySource source sourcePlaceId = some place) :
    place ∈ s.places.rows ∧ place.source = source ∧ place.sourcePlaceId = some sourcePlaceId := by
  have hcols := List.find?_some h
  rw [Bool.and_eq_true, beq_iff_eq, beq_iff_eq] at hcols
  exact ⟨List.mem_of_find?_eq_some h, hcols⟩

theorem getPlaceBySource_none {source : PlaceSource} {sourcePlaceId : String}
    (h : s.getPlaceBySource source sourcePlaceId = none) :
    ¬ ∃ place ∈ s.places.rows,
      place.source = source ∧ place.sourcePlaceId = some sourcePlaceId := by
  rintro ⟨place, hplace, hsource, hstored⟩
  have hnone := List.find?_eq_none.mp h place hplace
  simp [hsource, hstored] at hnone

/-- The places stay, and a city that comes back is stored. -/
structure CityStored (s : PlacesDb) (answer : Answer PlacesDb Empty Failure CityRecord) : Prop where
  places : answer.store.places = s.places
  city : ∀ city, answer.result = .ok city → ∃ c ∈ answer.store.cities.rows, c.id = city.id

theorem upsertCitySummary_stores (summary : GoogleCitySummary) (s : PlacesDb) :
    CityStored s ((upsertCitySummary calls summary).run s) := by
  rw [upsertCitySummary, run_stmt]
  split
  · rename_i city hcity
    refine ⟨rfl, fun stored hstored => ?_⟩
    cases hstored
    have hmem := List.mem_of_find?_eq_some hcity
    have hkey := List.find?_some hcity
    exact ⟨summary.update city, List.mem_map.mpr ⟨city, hmem, if_pos hkey⟩, rfl⟩
  · split
    · rename_i cities hcities
      refine ⟨rfl, fun stored hstored => ?_⟩
      cases hstored
      refine ⟨_, ?_, rfl⟩
      show _ ∈ cities.rows
      rw [(Table.insert_eq_some hcities).1]
      exact List.mem_append_right _ List.mem_cons_self
    · exact ⟨rfl, nofun⟩

variable (calls) in
theorem ensureStoredCityForCoordinates_stores (lat lng : Option Rat) (s : PlacesDb) :
    CityStored s ((ensureStoredCityForCoordinates calls lat lng).run s) := by
  have hfail : ∀ e, CityStored s ((.fail e : PlacesProg CityRecord).run s) := fun e =>
    ⟨rfl, nofun⟩
  unfold ensureStoredCityForCoordinates
  split
  · rename_i lat lng
    split
    · exact hfail _
    · cases calls.getCachedReverseGeocodeCity lat lng with
      | error e => exact hfail _
      | ok cached =>
        cases cached with
        | some city => exact upsertCitySummary_stores city s
        | none =>
          cases calls.reverseGeocodeCity lat lng with
          | error e => exact hfail _
          | ok city =>
            cases city with
            | none => exact hfail _
            | some city =>
              cases calls.setCachedValue with
              | error e => exact hfail _
              | ok done => exact upsertCitySummary_stores city s
  · exact hfail _

/-- A write fails and changes nothing, or gives back the row it has stored. -/
theorem run_writing (id : Id) (write : Table PlaceRecord → Option (Table PlaceRecord))
    (s : PlacesDb) :
    (∃ e, (writing id write).run s = ⟨s, [], .error e⟩) ∨
    ∃ t place, (writing id write).run s = ⟨t, [], .ok place⟩ ∧ write s.places = some t.places ∧
      place ∈ t.places.rows ∧ place.id = id := by
  rw [writing, run_stmt]
  split
  · exact .inl ⟨_, rfl⟩
  · rename_i places hwrite
    split
    · rename_i t place ht hplace
      have hplaces : t.places = places := by
        unfold PlacesDb.withPlaces at ht
        split at ht
        · cases ht
          rfl
        · cases ht
      refine .inr ⟨t, place, rfl, by rw [hwrite, hplaces], ?_, ?_⟩
      · rw [hplaces]
        exact List.mem_of_find?_eq_some hplace
      · simpa using List.find?_some hplace
    · exact .inl ⟨_, rfl⟩
    · exact .inl ⟨_, rfl⟩

variable (calls) in
/-- A place that was written is stored under the id of the input. -/
theorem run_upsertPlace (input : UpsertPlaceInput) (s : PlacesDb) :
    (∃ e, (upsertPlace calls input).run s = ⟨s, [], .error e⟩) ∨
    ∃ t place, (upsertPlace calls input).run s = ⟨t, [], .ok place⟩ ∧ place ∈ t.places.rows ∧
      place.sourcePlaceId = input.sourcePlaceId := by
  rw [upsertPlace, run_bind_ok (by rw [run_query]), run_query]
  dsimp only
  split
  · rename_i existing hexisting
    obtain ⟨e, hrun⟩ | ⟨t, place, hrun, hwrite, hplace, hid⟩ := run_writing existing.id
      (fun places => places.modify (·.id == existing.id) (input.data calls.now)) s
    · exact .inl ⟨e, by rw [hrun]; rfl⟩
    · refine .inr ⟨t, place, by rw [hrun]; rfl, hplace, ?_⟩
      rw [Table.modify_eq_some hwrite] at hplace
      obtain ⟨row, hrow, rfl⟩ := List.mem_map.mp hplace
      split
      · rfl
      · rename_i hother
        rw [if_neg hother] at hid
        exact absurd (beq_iff_eq.mpr hid) hother
  · obtain ⟨e, hrun⟩ | ⟨t, place, hrun, hwrite, hplace, hid⟩ :=
      run_writing ((input.id.bind orNull).getD calls.placeId)
        (fun places => places.insert (input.data calls.now
          (.blank ((input.id.bind orNull).getD calls.placeId) calls.now))) s
    · exact .inl ⟨e, by rw [hrun]; rfl⟩
    · refine .inr ⟨t, place, by rw [hrun]; rfl, hplace, ?_⟩
      obtain ⟨hrows, hfree⟩ := Table.insert_eq_some hwrite
      rw [hrows, List.mem_append, List.mem_singleton] at hplace
      obtain hplace | rfl := hplace
      · have hclash := (Bool.or_eq_false_iff.mp (hfree place hplace)).1
        exact absurd hid (beq_eq_false_iff_ne.mp hclash)
      · rfl

/-! ## What is given out -/

/-- An HTTP exception, or a place stored under the id that was asked for or the one
in Google's answer. -/
def HandsOutStored (calls : ResolveCalls) (sourcePlaceId : String)
    (answer : Answer PlacesDb Empty Failure (Option PlaceRecord)) : Prop :=
  match answer.result with
  | .error e => ∃ exception, e = .http exception
  | .ok none => False
  | .ok (some place) => place ∈ answer.store.places.rows ∧
      (place.sourcePlaceId = some sourcePlaceId ∨
        ∃ details, getPlaceDetails calls sourcePlaceId = .ok details ∧
          place.sourcePlaceId = some details.sourcePlaceId)

/-- The `try` of a call: nothing but cities when it fails, a stored place otherwise. -/
structure Tried (s : PlacesDb) (sourcePlaceId : Option String)
    (answer : Answer PlacesDb Empty Failure PlaceRecord) : Prop where
  failed : ∀ e, answer.result = .error e → answer.store.places = s.places
  stored : ∀ place, answer.result = .ok place →
    place ∈ answer.store.places.rows ∧ place.sourcePlaceId = sourcePlaceId

/-- The city first, then the write. -/
theorem tried_write {lat lng : Option Rat} (input : CityRecord → UpsertPlaceInput)
    {sourcePlaceId : Option String} (hinput : ∀ city, (input city).sourcePlaceId = sourcePlaceId)
    (s : PlacesDb) : Tried s sourcePlaceId
      ((ensureStoredCityForCoordinates calls lat lng >>= fun city =>
        upsertPlace calls (input city)).run s) := by
  have hcity := ensureStoredCityForCoordinates_stores calls lat lng s
  cases hr : ((ensureStoredCityForCoordinates calls lat lng).run s).result with
  | error e =>
    rw [run_bind_error hr]
    exact ⟨fun _ _ => hcity.places, fun _ h => by cases h⟩
  | ok city =>
    rw [run_bind_ok hr]
    obtain ⟨e, hrun⟩ | ⟨t, place, hrun, hplace, hid⟩ := run_upsertPlace calls (input city)
      ((ensureStoredCityForCoordinates calls lat lng).run s).store
    · rw [hrun]
      exact ⟨fun _ _ => hcity.places, fun _ h => by cases h⟩
    · rw [hrun]
      refine ⟨(fun _ h => by cases h), fun stored hstored => ?_⟩
      cases hstored
      exact ⟨hplace, hid.trans (hinput city)⟩

variable (calls) in
theorem tried_backfill {sourcePlaceId : String} {existing : PlaceRecord}
    (hid : existing.sourcePlaceId = some sourcePlaceId) (s : PlacesDb) :
    Tried s (some sourcePlaceId) ((backfill calls sourcePlaceId existing).run s) := by
  unfold backfill
  cases hdetails : getPlaceDetails calls sourcePlaceId with
  | error e =>
    rw [awaiting_error_bind]
    exact ⟨fun _ _ => rfl, fun _ h => by cases h⟩
  | ok details =>
    rw [awaiting_ok_bind]
    refine tried_write (backfillInput sourcePlaceId existing details) (fun city => ?_) s
    show some (existing.sourcePlaceId.getD sourcePlaceId) = some sourcePlaceId
    rw [hid, Option.getD_some]

theorem storeNew_stores {sourcePlaceId : String} {place : PlaceRecord} (s : PlacesDb)
    (h : ((storeNew calls sourcePlaceId).run s).result = .ok place) :
    place ∈ ((storeNew calls sourcePlaceId).run s).store.places.rows ∧
      ∃ details, getPlaceDetails calls sourcePlaceId = .ok details ∧
        place.sourcePlaceId = some details.sourcePlaceId := by
  unfold storeNew at h ⊢
  cases hdetails : getPlaceDetails calls sourcePlaceId with
  | error e =>
    rw [hdetails, awaiting_error_bind] at h
    cases h
  | ok details =>
    rw [hdetails, awaiting_ok_bind] at h
    rw [awaiting_ok_bind]
    obtain ⟨hplace, hid⟩ := (tried_write (newPlaceInput details) (fun _ => rfl) s).stored place h
    exact ⟨hplace, details, rfl, hid⟩

/-- A call gives out nothing that is missing, unless it does not use Google and the
place is not stored. -/
theorem resolve_hands_out_iff (calls : ResolveCalls) (input : ResolvePlaceDto) (s : PlacesDb) :
    HandsOutStored calls (normalizeGooglePlaceId input.sourcePlaceId)
      ((resolve calls input).run s) ↔
    (normalizeGooglePlaceId input.sourcePlaceId = "" ∨ calls.shouldUseGooglePlaces = true ∨
      ∃ place ∈ s.places.rows, place.source = input.source ∧
        place.sourcePlaceId = some (normalizeGooglePlaceId input.sourcePlaceId)) := by
  generalize hid : normalizeGooglePlaceId input.sourcePlaceId = sourcePlaceId
  unfold resolve resolveWith
  simp only [id]
  rw [hid]
  split
  · rename_i hempty
    exact ⟨fun _ => .inl hempty, fun _ => ⟨_, rfl⟩⟩
  rename_i hnonempty
  rw [run_bind_ok (by rw [run_query]), run_query]
  cases hexisting : s.getPlaceBySource input.source sourcePlaceId with
  | some existing =>
    obtain ⟨hmem, hsource, hstored⟩ := getPlaceBySource_some hexisting
    refine iff_of_true ?_ (.inr (.inr ⟨existing, hmem, hsource, hstored⟩))
    dsimp only
    split
    · exact ⟨hmem, .inl hstored⟩
    · have htried := tried_backfill calls hstored s
      rw [run_bind_ok (by rw [run_attempt]), run_attempt]
      cases hr : ((backfill calls sourcePlaceId existing).run s).result with
      | ok place =>
        obtain ⟨hplace, hpid⟩ := htried.stored place hr
        exact ⟨hplace, .inl hpid⟩
      | error e =>
        refine ⟨?_, .inl hstored⟩
        show existing ∈ ((backfill calls sourcePlaceId existing).run s).store.places.rows
        rw [htried.failed e hr]
        exact hmem
  | none =>
    have hmissing := getPlaceBySource_none hexisting
    by_cases hgoogle : calls.shouldUseGooglePlaces = true
    · refine iff_of_true ?_ (.inr (.inl hgoogle))
      dsimp only [Option.bind_none, Option.isSome_none]
      rw [hgoogle, if_neg (by decide), if_neg (by decide)]
      rw [run_bind_ok (by rw [run_attempt]), run_attempt]
      cases hr : ((storeNew calls sourcePlaceId).run s).result with
      | ok place =>
        obtain ⟨hplace, details, hdetails, hpid⟩ := storeNew_stores s hr
        exact ⟨hplace, .inr ⟨details, hdetails, hpid⟩⟩
      | error e => exact ⟨_, rfl⟩
    · refine iff_of_false ?_ ?_
      · dsimp only [Option.bind_none, Option.isSome_none]
        rw [Bool.eq_false_iff.mpr hgoogle, if_pos (by decide)]
        exact id
      · rintro (hempty | hused | hfound)
        · exact hnonempty hempty
        · exact hgoogle hused
        · exact hmissing hfound

def localOnlyCalls : ResolveCalls where
  isEnabled := true
  googlePlacesLocalOnly := true
  fetchPlace _ := .ok {}
  buildPhotoUrl name := name
  getCachedReverseGeocodeCity _ _ := .ok none
  reverseGeocodeCity _ _ := .ok none
  setCachedValue := .ok ()
  now := 0
  placeId := "p1"
  cityId := "c1"

def noPlaces : PlacesDb where
  places := .empty
  cities := .empty
  place_city := by simp

theorem local_only_hands_out_null : ¬ HandsOutStored localOnlyCalls "ChIJ"
    ((resolve localOnlyCalls { sourcePlaceId := "ChIJ" }).run noPlaces) := by
  have hresult : ((resolve localOnlyCalls { sourcePlaceId := "ChIJ" }).run noPlaces).result = .ok none :=
    rfl
  unfold HandsOutStored
  rw [hresult]
  exact id

/-! ## What a backfill keeps -/

/-- Each field that Google's answer omits has its stored value. -/
structure KeepsOmitted (place : GooglePlace) (before after : PlaceRecord) : Prop where
  name : place.text = none → after.name = before.name
  address : place.formattedAddress = none → after.address = before.address
  lat : place.latitude = none → after.lat = before.lat
  lng : place.longitude = none → after.lng = before.lng
  categories : place.types = none → after.categories = before.categories
  ratingExternal : place.rating = none → after.ratingExternal = before.ratingExternal
  ratingCountExternal : place.userRatingCount = none →
    after.ratingCountExternal = before.ratingCountExternal
  phone : place.nationalPhoneNumber = none → after.phone = before.phone
  website : place.websiteUri = none → after.website = before.website
  openingHours : place.weekdayDescriptions = none → after.openingHours = before.openingHours
  googleMapsUri : place.googleMapsUri = none → after.googleMapsUri = before.googleMapsUri
  coverPhotoRef : place.coverPhotoRef = none → after.coverPhotoRef = before.coverPhotoRef
  coverPhotoUrl : place.coverPhotoRef = none → after.coverPhotoUrl = before.coverPhotoUrl

variable {sourcePlaceId normalizedPlaceId : String} {existing : PlaceRecord} {place : GooglePlace}
  {details : GooglePlaceDetails} {city : CityRecord}

/-- What the write of a backfill makes of the row. -/
abbrev backfilled (calls : ResolveCalls) (sourcePlaceId : String) (existing : PlaceRecord)
    (details : GooglePlaceDetails) (city : CityRecord) : PlaceRecord :=
  (backfillInput sourcePlaceId existing details city).data calls.now existing

/-- Of all fields only the name and the address have a stand-in that is taken for an answer. -/
theorem keepsOmitted_backfilled_iff : KeepsOmitted place existing
      (backfilled calls sourcePlaceId existing (detailsOf calls normalizedPlaceId place) city) ↔
    (place.text.isSome ∨ existing.name = "Lugar sin nombre") ∧
      (place.formattedAddress.isSome ∨ existing.address = "") := by
  constructor
  · intro h
    constructor
    · cases htext : place.text with
      | some text => exact .inl rfl
      | none =>
        have hname : place.text.getD "Lugar sin nombre" = existing.name := h.name htext
        rw [htext, Option.getD_none] at hname
        exact .inr hname.symm
    · cases haddress : place.formattedAddress with
      | some address => exact .inl rfl
      | none =>
        have hkept : place.formattedAddress.getD "" = existing.address := h.address haddress
        rw [haddress, Option.getD_none] at hkept
        exact .inr hkept.symm
  · rintro ⟨hname, haddress⟩
    have hor : ∀ {α : Type} {given : Option α} (stored : Option α), given = none →
        given.or stored = stored := by
      rintro α _ stored rfl
      rfl
    refine ⟨fun h => ?_, fun h => ?_, hor _, hor _, fun h => ?_, hor _, hor _, hor _, hor _,
      fun h => ?_, hor _, hor _, fun h => ?_⟩
    · show place.text.getD "Lugar sin nombre" = existing.name
      rw [h] at hname ⊢
      exact (hname.resolve_left nofun).symm
    · show place.formattedAddress.getD "" = existing.address
      rw [h] at haddress ⊢
      exact (haddress.resolve_left nofun).symm
    · show (if (place.types.getD []).length > 0 then place.types.getD [] else existing.categories) =
        existing.categories
      rw [h]
      rfl
    · show (place.weekdayDescriptions.filter (·.length > 0)).getD existing.openingHours =
        existing.openingHours
      rw [h]
      rfl
    · show ((place.coverPhotoRef.bind orNull).map calls.buildPhotoUrl).or existing.coverPhotoUrl =
        existing.coverPhotoUrl
      rw [h]
      rfl

theorem eq_of_id {row other : PlaceRecord} {places : Table PlaceRecord} (hrow : row ∈ places.rows)
    (hother : other ∈ places.rows) (h : (row.id == other.id) = true) : row = other := by
  refine Table.eq_of_conflicts hrow hother ?_
  show (row.id == other.id || _) = true
  rw [h, Bool.true_or]

/-- A write of a row of the table that keeps its source id and names a stored city. -/
theorem run_writing_modify {f : PlaceRecord → PlaceRecord} (hmem : existing ∈ t.places.rows)
    (hid : (f existing).id = existing.id)
    (hsource : (f existing).sourcePlaceId = existing.sourcePlaceId)
    (hcity : ∀ cityId ∈ (f existing).cityId, ∃ c ∈ t.cities.rows, c.id = cityId) :
    ∃ u, (writing existing.id fun places => places.modify (·.id == existing.id) f).run t =
      ⟨u, [], .ok (f existing)⟩ ∧ f existing ∈ u.places.rows := by
  have hclash : ∀ row ∈ t.places.rows, (row.id == existing.id) = true →
      ∀ other, conflicts (f row) other = conflicts row other := by
    intro row hrow hrowid other
    obtain rfl := eq_of_id hrow hmem hrowid
    show ((f row).id == other.id || ((f row).sourcePlaceId == other.sourcePlaceId &&
      ((f row).sourcePlaceId.isSome && other.sourcePlaceId.isSome))) = _
    rw [hid, hsource]
    rfl
  obtain ⟨places, hplaces⟩ := Table.exists_modify hclash
  have hrows := Table.modify_eq_some hplaces
  have hwritten : f existing ∈ places.rows := by
    rw [hrows, List.mem_map]
    exact ⟨existing, hmem, by rw [if_pos (beq_self_eq_true existing.id)]⟩
  have hcities : ∀ p ∈ places.rows, ∀ cityId ∈ p.cityId, ∃ c ∈ t.cities.rows, c.id = cityId := by
    intro p hp cityId hcityId
    rw [hrows, List.mem_map] at hp
    obtain ⟨row, hrow, rfl⟩ := hp
    split at hcityId
    · rename_i hrowid
      obtain rfl := eq_of_id hrow hmem hrowid
      exact hcity cityId hcityId
    · exact t.place_city row hrow cityId hcityId
  have hfind : places.rows.find? (·.id == existing.id) = some (f existing) := by
    obtain ⟨found, hfound⟩ : ∃ found, places.rows.find? (·.id == existing.id) = some found := by
      rw [← Option.isSome_iff_exists, List.find?_isSome]
      exact ⟨f existing, hwritten, beq_iff_eq.mpr hid⟩
    have hfoundid := List.find?_some hfound
    rw [← hid] at hfoundid
    rw [hfound, eq_of_id (List.mem_of_find?_eq_some hfound) hwritten hfoundid]
  refine ⟨{ t with places, place_city := hcities }, ?_, hwritten⟩
  rw [writing, run_stmt, hplaces]
  dsimp only
  rw [PlacesDb.withPlaces, dif_pos hcities, hfind]

variable (calls details) in
/-- The write of a backfill always goes through. -/
theorem run_upsertPlace_backfill (hne : sourcePlaceId ≠ "")
    (hexisting : t.getPlaceBySource existing.source sourcePlaceId = some existing)
    (hcity : ∃ c ∈ t.cities.rows, c.id = city.id) :
    ∃ u, (upsertPlace calls (backfillInput sourcePlaceId existing details city)).run t =
        ⟨u, [], .ok (backfilled calls sourcePlaceId existing details city)⟩ ∧
      backfilled calls sourcePlaceId existing details city ∈ u.places.rows := by
  obtain ⟨hmem, -, hstored⟩ := getPlaceBySource_some hexisting
  have hid : some (existing.sourcePlaceId.getD sourcePlaceId) = some sourcePlaceId := by
    rw [hstored, Option.getD_some]
  have hfind : (backfillInput sourcePlaceId existing details city).findExisting t =
      some existing := by
    unfold UpsertPlaceInput.findExisting backfillInput
    dsimp only
    rw [hid, Option.bind_some, orNull, if_neg hne]
    exact hexisting
  obtain ⟨u, hrun, hwritten⟩ := run_writing_modify
    (f := (backfillInput sourcePlaceId existing details city).data calls.now) hmem rfl
    (hid.trans hstored.symm) (by
      intro cityId hcityId
      cases hold : existing.cityId with
      | none =>
        have hnew : some (existing.cityId.getD city.id) = some cityId := hcityId
        rw [hold, Option.getD_none] at hnew
        cases hnew
        exact hcity
      | some old =>
        have hkept : some (existing.cityId.getD city.id) = some cityId := hcityId
        rw [hold, Option.getD_some] at hkept
        cases hkept
        exact t.place_city existing hmem cityId hold)
  refine ⟨u, ?_, hwritten⟩
  rw [upsertPlace, run_bind_ok (by rw [run_query]), run_query]
  dsimp only
  rw [hfind]
  dsimp only
  rw [hrun]
  rfl

theorem store_resolve_backfill {input : ResolvePlaceDto}
    (hinput : normalizeGooglePlaceId input.sourcePlaceId = sourcePlaceId) (hne : sourcePlaceId ≠ "")
    (hexisting : s.getPlaceBySource input.source sourcePlaceId = some existing)
    (hcover : existing.coverPhotoUrl.bind orNull = none)
    (hgoogle : calls.shouldUseGooglePlaces = true) :
    ((resolve calls input).run s).store = ((backfill calls sourcePlaceId existing).run s).store := by
  unfold resolve resolveWith
  simp only [id]
  rw [hinput]
  rw [if_neg hne, run_bind_ok (by rw [run_query]), run_query]
  dsimp only
  rw [hexisting, Option.bind_some, hcover, hgoogle, if_neg (by decide)]
  dsimp only
  rw [run_bind_ok (by rw [run_attempt]), run_attempt]
  cases ((backfill calls sourcePlaceId existing).run s).result with
  | ok place => rfl
  | error e => rfl

theorem KeepsOmitted.refl (place : GooglePlace) (row : PlaceRecord) : KeepsOmitted place row row := by
  constructor <;> exact fun _ => rfl

/-- A backfill keeps what Google's answer omits exactly where it comes to no write, or
the answer has a name and an address, or their stand-ins are what is stored. -/
theorem resolve_keeps_omitted_iff {input : ResolvePlaceDto}
    (hinput : normalizeGooglePlaceId input.sourcePlaceId = sourcePlaceId) (hne : sourcePlaceId ≠ "")
    (hexisting : s.getPlaceBySource input.source sourcePlaceId = some existing)
    (hcover : existing.coverPhotoUrl.bind orNull = none)
    (hgoogle : calls.shouldUseGooglePlaces = true)
    (hanswer : calls.fetchPlace (normalizeGooglePlaceId sourcePlaceId) = .ok place) :
    (∃ after ∈ ((resolve calls input).run s).store.places.rows,
      after.id = existing.id ∧ KeepsOmitted place existing after) ↔
    ((∃ city, ((ensureStoredCityForCoordinates calls (place.latitude.or existing.lat)
        (place.longitude.or existing.lng)).run s).result = .ok city) →
      (place.text.isSome ∨ existing.name = "Lugar sin nombre") ∧
        (place.formattedAddress.isSome ∨ existing.address = "")) := by
  rw [store_resolve_backfill hinput hne hexisting hcover hgoogle]
  obtain ⟨hmem, hsource, -⟩ := getPlaceBySource_some hexisting
  have henabled : calls.isEnabled = true := (Bool.and_eq_true_iff.mp hgoogle).1
  have hdetails : getPlaceDetails calls sourcePlaceId =
      .ok (detailsOf calls (normalizeGooglePlaceId sourcePlaceId) place) := by
    rw [getPlaceDetails, if_pos henabled, hanswer]
    rfl
  rw [backfill, hdetails, awaiting_ok_bind]
  generalize hd : detailsOf calls (normalizeGooglePlaceId sourcePlaceId) place = details
  have hlat : place.latitude = details.lat := by rw [← hd, detailsOf]
  have hlng : place.longitude = details.lng := by rw [← hd, detailsOf]
  rw [hlat, hlng]
  have hcity := ensureStoredCityForCoordinates_stores calls
    (details.lat.or existing.lat) (details.lng.or existing.lng) s
  cases hr : ((ensureStoredCityForCoordinates calls (details.lat.or existing.lat)
      (details.lng.or existing.lng)).run s).result with
  | error e =>
    rw [run_bind_error hr]
    refine iff_of_true ⟨existing, ?_, rfl, .refl place existing⟩ ?_
    · show existing ∈ Table.rows (PlacesDb.places _)
      rw [hcity.places]
      exact hmem
    · rintro ⟨city, hcity⟩
      cases hcity
  | ok city =>
    have hthere : PlacesDb.getPlaceBySource ((ensureStoredCityForCoordinates calls
        (details.lat.or existing.lat) (details.lng.or existing.lng)).run s).store
          existing.source sourcePlaceId = some existing := by
      unfold PlacesDb.getPlaceBySource
      rw [hcity.places, hsource]
      exact hexisting
    obtain ⟨u, hrun, hwritten⟩ := run_upsertPlace_backfill calls details hne hthere
      (hcity.city city hr)
    have hkeeps : KeepsOmitted place existing (backfilled calls sourcePlaceId existing details city) ↔
        (place.text.isSome ∨ existing.name = "Lugar sin nombre") ∧
          (place.formattedAddress.isSome ∨ existing.address = "") := by
      rw [← hd]
      exact keepsOmitted_backfilled_iff
    rw [run_bind_ok hr, hrun]
    dsimp only
    constructor
    · rintro ⟨after, hafter, hid, hkept⟩ -
      rw [eq_of_id hafter hwritten (beq_iff_eq.mpr hid)] at hkept
      exact hkeeps.mp hkept
    · intro hkept
      exact ⟨_, hwritten, rfl, hkeeps.mpr (hkept ⟨city, rfl⟩)⟩

/-- Google, which answers this of every place. -/
def answering (place : GooglePlace) : ResolveCalls :=
  { localOnlyCalls with
    googlePlacesLocalOnly := false
    fetchPlace := fun _ => .ok place
    getCachedReverseGeocodeCity := fun _ _ => .ok (some
      { city := "Rosario", cityGooglePlaceId := "ChIJ-rosario", displayName := "Rosario" }) }

def barSol : PlaceRecord where
  id := "p1"
  sourcePlaceId := some "ChIJ"
  name := "Bar Sol"
  address := "Calle 1"
  city := "Rosario"
  lat := some (-33)
  lng := some (-60)
  phone := some "341"

def barSolOnly : PlacesDb where
  places := .singleton barSol
  cities := .empty
  place_city p hp := by
    rw [Table.rows_singleton, List.mem_singleton] at hp
    rw [hp]
    exact nofun

/-- An answer without a name takes the stored one away. -/
theorem nameless_answer_erases_name : ¬ ∃ after ∈
    ((resolve (answering {}) { sourcePlaceId := "ChIJ" }).run barSolOnly).store.places.rows,
      after.id = barSol.id ∧ KeepsOmitted {} barSol after := by
  rintro ⟨after, hafter, -, hkept⟩
  have hnames : ((resolve (answering {}) { sourcePlaceId := "ChIJ" }).run
      barSolOnly).store.places.rows.map (·.name) = ["Lugar sin nombre"] := by decide
  have hname : after.name ∈ ["Lugar sin nombre"] := hnames ▸ List.mem_map_of_mem hafter
  rw [hkept.name rfl, List.mem_singleton] at hname
  exact absurd hname (by decide)

def namedAnswer : GooglePlace where
  displayName := some { text := some "Bar El Sol" }
  formattedAddress := some "Calle 1, Rosario"

theorem named_answer_keeps_phone : ∃ after ∈
    ((resolve (answering namedAnswer) { sourcePlaceId := "ChIJ" }).run barSolOnly).store.places.rows,
      after.id = barSol.id ∧ KeepsOmitted namedAnswer barSol after := by
  have hiff := @resolve_keeps_omitted_iff (answering namedAnswer) barSolOnly "ChIJ" barSol
    namedAnswer { sourcePlaceId := "ChIJ" } (by decide) (by decide) rfl rfl rfl rfl
  exact hiff.mpr fun _ => ⟨.inl rfl, .inl rfl⟩

end Feca.Places
