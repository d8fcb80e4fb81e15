import Feca.Content.PlaceContext

/-! # Places as the clients see them

A place is listed by its Google id, whether Google has just answered it or the
database has it. The id arrives in many spellings: with blanks around it,
percent-encoded, or as the end of a resource name.
-/

namespace Feca.Places

open Content Social

/-! ## Ids -/

def hexDigit (c : Char) : Option Nat :=
  let n := c.toNat
  if 48 ≤ n ∧ n ≤ 57 then some (n - 48)
  else if 65 ≤ n ∧ n ≤ 70 then some (n - 55)
  else if 97 ≤ n ∧ n ≤ 102 then some (n - 87)
  else none

/-- Within a character: the bytes still to come, what the ones before say, and
the least code point that needs so many. -/
structure Utf8State where
  pending : Nat
  value : Nat
  least : Nat
  deriving DecidableEq, Repr

def Utf8State.start : Utf8State := ⟨0, 0, 0⟩

/-- The first byte of a character. -/
def leadByte (byte : Nat) : Option Utf8State :=
  if byte < 0x80 then some ⟨0, byte, 0⟩
  else if byte < 0xC0 then none
  else if byte < 0xE0 then some ⟨1, byte - 0xC0, 0x80⟩
  else if byte < 0xF0 then some ⟨2, byte - 0xE0, 0x800⟩
  else if byte < 0xF8 then some ⟨3, byte - 0xF0, 0x10000⟩
  else none

def nextByte (state : Utf8State) (byte : Nat) : Option Utf8State :=
  match state.pending with
  | 0 => leadByte byte
  | pending + 1 =>
      if 0x80 ≤ byte ∧ byte < 0xC0 then
        some ⟨pending, state.value * 64 + (byte - 0x80), state.least⟩
      else none

/-- The character a state has come to, or nothing while bytes are missing. -/
def decodedChar (state : Utf8State) : Option (List Char) :=
  if state.pending ≠ 0 then some []
  else if state.least ≤ state.value ∧ state.value.isValidChar then some [Char.ofNat state.value]
  else none

def decodeChars : Utf8State → List Char → Option (List Char)
  | state, [] => if state.pending = 0 then some [] else none
  | state, '%' :: a :: b :: rest =>
      match (hexDigit a).bind fun high => (hexDigit b).bind fun low =>
          nextByte state (high * 16 + low) with
      | none => none
      | some state =>
          (decodedChar state).bind fun out => (decodeChars state rest).map (out ++ ·)
  | state, c :: rest =>
      if c = '%' ∨ state.pending ≠ 0 then none else (decodeChars state rest).map (c :: ·)

/-- `decodeURIComponent`; none where it throws. -/
def decodeURIComponent (value : String) : Option String :=
  (decodeChars .start value.toList).map String.ofList

theorem decodeChars_of_not_mem {text : List Char} (h : '%' ∉ text) :
    decodeChars .start text = some text := by
  induction text with
  | nil => rfl
  | cons c rest ih =>
    have hc : c ≠ '%' := fun heq => h (heq ▸ List.mem_cons_self)
    have hrest := ih fun hmem => h (List.mem_cons_of_mem c hmem)
    rw [decodeChars.eq_def]
    split <;> simp_all [Utf8State.start]

/-- A text without an escape stays as it is. -/
theorem decodeURIComponent_of_not_mem {value : String} (h : '%' ∉ value.toList) :
    decodeURIComponent value = some value := by
  rw [decodeURIComponent, decodeChars_of_not_mem h, Option.map_some, String.ofList_toList]

/-- `places\/([^/?#]+)` at the start of the text. -/
def placesSegment (text : List Char) : Option (List Char) :=
  ("places/".toList.isPrefixOf? text).bind fun rest =>
    match rest.takeWhile fun c => c ≠ '/' ∧ c ≠ '?' ∧ c ≠ '#' with
    | [] => none
    | id => some id

/-- The same after the first slash it follows. -/
def slashSegment : List Char → Option (List Char)
  | [] => none
  | c :: rest => (if c = '/' then placesSegment rest else none).or (slashSegment rest)

def normalizeGooglePlaceId (value : String) : String :=
  let trimmed := trim value
  let decoded := (decodeURIComponent trimmed).getD trimmed
  match (placesSegment decoded.toList).or (slashSegment decoded.toList) with
  | some id => String.ofList id
  | none => decoded

example : normalizeGooglePlaceId " places%2FChIJ\x7bx\x7d?hl=es " = "ChIJ\x7bx\x7d" := by decide

/-! ## Summaries -/

structure GooglePlaceSummary where
  googlePlaceId : String
  name : String
  address : String
  lat : Rat
  lng : Rat
  googleMapsUri : Option String := none
  rating : Option Rat := none
  userRatingCount : Option Int := none
  types : List String := []
  primaryType : Option String := none
  photoUrl : Option String := none
  openNow : Option Bool := none
  openingWeekdayLines : Option (List String) := none
  deriving DecidableEq, Repr

structure FecaPlaceReview where
  id : Id
  userDisplayName : String
  rating : Int
  note : String
  visitedAt : String
  relativeTime : Option String
  deriving DecidableEq, Repr

structure GoogleReview where
  authorName : String
  rating : Rat
  relativeTime : String
  text : String
  deriving DecidableEq, Repr

structure GooglePlaceDetailView extends GooglePlaceSummary where
  editorialSummary : Option String := none
  openingHours : Option (List String) := none
  photos : List String := []
  reviews : Option (List GoogleReview) := none
  fecaReviews : Option (List FecaPlaceReview) := none
  deriving DecidableEq, Repr

def mapStoredPlaceToNearby (place : PlaceRow) : GooglePlaceSummary where
  googlePlaceId := place.sourcePlaceId.getD place.id
  name := place.name
  address := place.address
  lat := place.lat.getD 0
  lng := place.lng.getD 0
  googleMapsUri := place.googleMapsUri
  rating := place.ratingExternal
  userRatingCount := place.ratingCountExternal
  types := place.categories
  primaryType := place.categories.head?
  photoUrl := place.coverPhotoUrl
  -- The database keeps the weekly hours only; whether a place is open Google alone says.
  openNow := none
  openingWeekdayLines := if place.openingHours.length > 0 then some place.openingHours else none

def mapStoredPlaceToDetail (place : PlaceRow) (googlePlaceId : String)
    (fecaReviews : List FecaPlaceReview) : GooglePlaceDetailView :=
  { mapStoredPlaceToNearby place with
    googlePlaceId
    editorialSummary := none
    fecaReviews := some fecaReviews
    openingHours := some place.openingHours
    photos := ((place.coverPhotoUrl.bind orNull).map fun url => [url]).getD []
    reviews := none }

/-! ## Reviews -/

/-- What the runtime computes for the pages of places. -/
structure PlacesEnv extends ContentEnv where
  /-- `new Intl.RelativeTimeFormat("es", { numeric: "auto" }).format(value, unit)`. -/
  relativeTimeFormat : Int → String → String

def formatRelativeTimeEs (env : PlacesEnv) (date : Date) : String :=
  let diffMinutes := mathRound ((date - env.now : Int) / 60000)
  let diffHours := mathRound (diffMinutes / 60)
  let diffDays := mathRound (diffHours / 24)
  let diffMonths := mathRound (diffDays / 30)
  if diffMinutes.natAbs < 60 then env.relativeTimeFormat diffMinutes "minute"
  else if diffHours.natAbs < 24 then env.relativeTimeFormat diffHours "hour"
  else if diffDays.natAbs < 30 then env.relativeTimeFormat diffDays "day"
  else if diffMonths.natAbs < 12 then env.relativeTimeFormat diffMonths "month"
  else env.relativeTimeFormat (mathRound (diffMonths / 12)) "year"

def mapVisitToFecaReview (env : PlacesEnv) (visit : VisitWithRelations) : FecaPlaceReview where
  id := visit.id
  userDisplayName := visit.user.shownName
  rating := visit.rating
  note := visit.note
  visitedAt := formatDateOnly env.toContentEnv visit.visitedAt
  relativeTime := some (formatRelativeTimeEs env visit.visitedAt)

end Feca.Places
