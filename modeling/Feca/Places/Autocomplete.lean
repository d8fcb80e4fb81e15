import Feca.Cache.SingleFlight
import Feca.Places.HomeList
import Feca.Places.World

/-! # Autocomplete, and places that are hidden

Autocomplete merges the places of the database with those Google suggests, leaves
out the ones an admin has hidden, and keeps its answers in a cache. Hiding a place
does not touch the cache: what it already holds may still be given out, but
nothing that is put there from then on shows the place.
-/

namespace Feca.Places

open Cache Collections Concurrency Concurrency.Prog Content Relational Social

/-! ## Requests and answers -/

structure AutocompletePlacesQuery where
  q : String
  city : Option String := none
  lat : Option Rat := none
  lng : Option Rat := none
  sessionToken : Option String := none
  limit : Nat := 5

def buildAutocompletePayload (items : List AutocompleteItem) (query : String)
    (providerAvailable : Bool) : AutocompletePayload where
  items := items
  fallback := { allowManual := true, prefillName := trim query }
  providerAvailable := providerAvailable

/-- An item has the id, as Google gives it or as it is stored. -/
def AutocompletePayload.Shows (payload : AutocompletePayload) (googlePlaceId : String) : Prop :=
  ∃ item ∈ payload.items, item.sourcePlaceId = some googlePlaceId

/-! ## Google's suggestions -/

structure PlacePrediction where
  placeId : Option String := none
  text : Option GoogleTextValue := none
  mainText : Option GoogleTextValue := none
  secondaryText : Option GoogleTextValue := none
  distanceMeters : Option Rat := none

structure RemoteItem where
  sourcePlaceId : String
  name : String
  address : String
  distanceMeters : Option Rat

def extractText (value : Option GoogleTextValue) : Option String := value.bind (·.text)

def PlacePrediction.remoteItem (prediction : PlacePrediction) (placeId : String) : RemoteItem where
  sourcePlaceId := placeId
  name := ((extractText prediction.mainText).or (extractText prediction.text)).getD
    "Lugar sin nombre"
  address := ((extractText prediction.secondaryText).or (extractText prediction.text)).getD ""
  distanceMeters := prediction.distanceMeters

/-- What the client makes of the suggestions; one without an id is none. -/
def remoteItems (limit : Nat) (suggestions : List (Option PlacePrediction)) : List RemoteItem :=
  (suggestions.filterMap fun suggestion => suggestion.bind fun prediction =>
    (prediction.placeId.bind orNull).map prediction.remoteItem).take limit

/-! ## The database -/

/-- The configuration, what comes back from outside and how the database compares texts. -/
structure AutocompleteEnv where
  isEnabled : Bool
  googlePlacesLocalOnly : Bool
  fetchSuggestions : AutocompletePlacesQuery → Except Thrown (List (Option PlacePrediction))
  setCachedValue : Except Thrown Unit
  containsInsensitive : String → String → Bool
  equalsInsensitive : String → String → Bool
  compareNames : String → String → Int
  toFixed3 : Rat → String
  toLowerCase : String → String
  /-- The order rows come in that the statement does not order. -/
  order : List PlaceRecord → List PlaceRecord
  order_perm : ∀ rows, (order rows).Perm rows

namespace AutocompleteEnv

variable (env : AutocompleteEnv)

def shouldUseGooglePlaces : Bool := env.isEnabled && !env.googlePlacesLocalOnly

/-- `google.autocomplete`. -/
def autocomplete (input : AutocompletePlacesQuery) : Except Thrown (List RemoteItem) :=
  if env.isEnabled then (env.fetchSuggestions input).map (remoteItems input.limit)
  else .error (.error "GOOGLE_MAPS_API_KEY is not configured")

def buildAutocompleteCacheKey (version : Nat) (input : AutocompletePlacesQuery) : String :=
  "places:autocomplete:v" ++ toString version ++ ":" ++ env.toLowerCase (trim input.q) ++ ":" ++
    (input.city.map fun city => env.toLowerCase (trim city)).getD "" ++ ":" ++
    (input.lat.map env.toFixed3).getD "na" ++ ":" ++ (input.lng.map env.toFixed3).getD "na" ++
    ":" ++ toString input.limit

/-! ## The database -/

/-- The `where` of `searchPlaces`. -/
def matchesSearch (query : String) (city : Option String) (place : PlaceRecord) : Bool :=
  visibleInAppWhere place.toPlaceRow &&
    (city.bind orNull).all (fun city => env.equalsInsensitive place.city city) &&
    (trim query == "" || env.containsInsensitive place.name (trim query) ||
      env.containsInsensitive place.address (trim query) ||
      env.containsInsensitive place.city (trim query))

/-- `orderBy: [{ updatedAt: "desc" }, { name: "asc" }]`. -/
def listedBefore (a b : PlaceRecord) : Prop :=
  b.updatedAt < a.updatedAt ∨ a.updatedAt = b.updatedAt ∧ env.compareNames a.name b.name ≤ 0

instance : DecidableRel env.listedBefore := fun a b => by
  unfold listedBefore
  infer_instance

def searchPlaces (s : PlacesDb) (query : String) (city : Option String) (limit : Nat) :
    List PlaceRecord :=
  ((env.order (s.places.rows.filter (env.matchesSearch query city))).insertionSort
    env.listedBefore).take limit

end AutocompleteEnv

namespace PlacesDb

def getHiddenGooglePlaceIds (s : PlacesDb) : OrderedSet String :=
  ((s.places.rows.map (·.toPlaceRow)).filter (·.hiddenFromApp)).foldl addHidden .empty

end PlacesDb

/-! ## Autocomplete -/

def localItem (place : PlaceRecord) : AutocompleteItem where
  id := place.id
  source := place.source
  sourcePlaceId := place.sourcePlaceId
  placeId := some place.id
  name := place.name
  address := place.address
  city := place.city
  lat := place.lat
  lng := place.lng
  categories := place.categories
  coverPhotoUrl := place.coverPhotoUrl
  ratingExternal := place.ratingExternal
  ratingCountExternal := place.ratingCountExternal
  alreadyInFeca := true

def mergeLocal (items : List AutocompleteItem) : OrderedMap String AutocompleteItem :=
  items.foldl (fun merged item => merged.set (item.placeId.getD item.id) item) .empty

def addRemote (input : AutocompletePlacesQuery) (merged : OrderedMap String AutocompleteItem)
    (item : RemoteItem) (existing : Option PlaceRecord) : OrderedMap String AutocompleteItem :=
  let key := (existing.map (·.id)).getD ("google:" ++ item.sourcePlaceId)
  if merged.has key then merged
  else merged.set key
    { id := key
      source := .google
      sourcePlaceId := some item.sourcePlaceId
      placeId := existing.map (·.id)
      name := item.name
      address := item.address
      city := input.city.getD ""
      categories := []
      distanceMeters := item.distanceMeters
      alreadyInFeca := existing.isSome }

def mergeRemote (input : AutocompletePlacesQuery) :
    List RemoteItem → OrderedMap String AutocompleteItem →
      WorldProg (OrderedMap String AutocompleteItem)
  | [], merged => pure merged
  | item :: items, merged => do
      let existing ← query (·.db.getPlaceBySource .google item.sourcePlaceId)
      mergeRemote input items (addRemote input merged item existing)

def isItemVisible (hiddenGoogleIds : OrderedSet String) (item : AutocompleteItem) : Bool :=
  ((item.sourcePlaceId.map trim).bind orNull).all fun googlePlaceId =>
    !hiddenGoogleIds.has googlePlaceId

def cacheAnswer (cacheKey : String) (payload : AutocompletePayload) : WorldProg Unit :=
  stmt fun w => ⟨{ w with cache := Function.update w.cache cacheKey (some payload) }, [], .ok ()⟩

/-- What a call ends with: its answer, which those have too that joined its flight if it
led one to the end. One that joins a flight answers `otherwise` if that one fails. -/
inductive AutocompleteEnd
  | joined (otherwise : AutocompletePayload)
  | led (payload : AutocompletePayload)
  | answered (payload : AutocompletePayload)
  deriving DecidableEq, Repr

/-- What the call has made itself. -/
def AutocompleteEnd.own : AutocompleteEnd → AutocompletePayload
  | .joined payload | .led payload | .answered payload => payload

section service

variable (flights : FlightEnv) (env : AutocompleteEnv) (input : AutocompletePlacesQuery)

/-- What the leader of a flight does. -/
def loadAutocomplete (cacheKey : String) (localItems : List AutocompleteItem) :
    WorldProg AutocompletePayload := do
  let remoteItems ← (awaiting (env.autocomplete input)).onPart dbPart
  let merged ← mergeRemote input remoteItems (mergeLocal localItems)
  let hiddenGoogleIds ← query (·.db.getHiddenGooglePlaceIds)
  let visibleMerged := merged.values.filter (isItemVisible hiddenGoogleIds)
  let payload := buildAutocompletePayload (visibleMerged.take input.limit) input.q true
  let () ← (awaiting env.setCachedValue).onPart dbPart
  cacheAnswer cacheKey payload
  pure payload

def autocompleteFlight (process cacheKey : String) (localItems : List AutocompleteItem) :
    FlightCall PlacesWorld Failure AutocompletePayload where
  process := process
  key := cacheKey
  load := loadAutocomplete env input cacheKey localItems
  readCached := some (query (·.cache cacheKey))

def autocomplete {ι : Type} [DecidableEq ι] (process : String) (self : ι) :
    FlightProg ι PlacesWorld Failure AutocompleteEnd := do
  let localItems ← query fun s =>
    (env.searchPlaces s.world.db input.q input.city input.limit).map localItem
  if !env.shouldUseGooglePlaces ∨ utf16Length (trim input.q) < 2 then
    pure (.answered (buildAutocompletePayload localItems input.q env.shouldUseGooglePlaces))
  else
    let version ← query fun s => s.world.versions process
    let cacheKey := env.buildAutocompleteCacheKey version input
    match ← query fun s => s.world.cache cacheKey with
    | some cached => pure (.answered cached)
    | none => do
        match ← (Cache.run flights (autocompleteFlight env input process cacheKey localItems)
            self).attempt with
        | .ok .joined => pure (.joined (buildAutocompletePayload localItems input.q false))
        | .ok (.settled payload) => pure (.led payload)
        | .error _ => pure (.answered (buildAutocompletePayload localItems input.q false))

end service

end Feca.Places
