import Feca.Places.Summary

/-! # Reading saved places

`GoogleDataPortabilityParserService` reads the saved places of a Google export:
those a client submits, and those it finds in the documents of an archive.
-/

namespace Feca.Imports

open Places

structure ParserEnv where
  toLowerCase : String → String
  /-- The entries of `new URL(url).searchParams`; none where the constructor throws. -/
  searchParams : String → Option (List (String × String))
  /-- `JSON.stringify`. -/
  stringify : Json → String
  /-- `createHash("sha256").update(text).digest("hex")`. -/
  sha256Hex : String → String

/-- A record, with its entries in the order in which they are enumerated. -/
abbrev JsonRecord := List (String × Json)

structure GoogleSavedCollectionItem where
  sourceKey : Option String := none
  title : Option String := none
  name : Option String := none
  url : Option String := none
  placeUrl : Option String := none
  googlePlaceId : Option String := none
  rawPayload : Option JsonRecord := none

/-- `MinLength(1)` on every text. -/
structure GoogleSavedCollectionItem.Accepted (item : GoogleSavedCollectionItem) : Prop where
  sourceKey : item.sourceKey ≠ some ""
  title : item.title ≠ some ""
  name : item.name ≠ some ""
  url : item.url ≠ some ""
  placeUrl : item.placeUrl ≠ some ""
  googlePlaceId : item.googlePlaceId ≠ some ""

/-! ## Text -/

def includes (text part : String) : Bool := text.toList.tails.any part.toList.isPrefixOf

/-- Trimmed, unless nothing is left. -/
def nonEmpty (value : Option String) : Option String := (value.map trim).bind orNull

/-- The first value that has something left when trimmed. -/
def firstNonEmptyString (values : List (Option String)) : Option String :=
  values.findSome? nonEmpty

def decodeGoogleValue (value : String) : String := (decodeURIComponent value).getD value

/-- `/^ChI[A-Za-z0-9_-]{12,}$/`, once decoded. -/
def looksLikeGooglePlaceId (value : String) : Bool :=
  match "ChI".toList.isPrefixOf? (decodeGoogleValue value).toList with
  | none => false
  | some rest => decide (12 ≤ rest.length) &&
      rest.all fun c => c.isAlphanum || c == '_' || c == '-'

/-- What follows the text, whatever the case of its letters. -/
def afterIgnoringCase : List Char → List Char → Option (List Char)
  | [], rest => some rest
  | _ :: _, [] => none
  | p :: ps, c :: cs => if c.toLower = p then afterIgnoringCase ps cs else none

/-- The longest non-empty run of characters other than `stops` behind the text. -/
def capture (text : String) (stops : List Char) (chars : List Char) : Option String :=
  (afterIgnoringCase text.toList chars).bind fun rest =>
    orNull (String.ofList (rest.takeWhile fun c => !stops.contains c))

/-- A match at the leftmost position that has one. -/
def leftmost (pattern : List Char → Option String) : List Char → Option String
  | [] => pattern []
  | c :: rest => (pattern (c :: rest)).or (leftmost pattern rest)

/-- `/(?:query_place_id|place_id)=([^&#]+)/i`. -/
def directMatch (url : String) : Option String :=
  leftmost (fun text => (capture "query_place_id=" ['&', '#'] text).or
    (capture "place_id=" ['&', '#'] text)) url.toList

/-- `/!1s([^!&#]+)/i`. -/
def dataMatch (url : String) : Option String :=
  leftmost (capture "!1s" ['!', '&', '#']) url.toList

def searchParam (env : ParserEnv) (url name : String) : Option String :=
  (env.searchParams url).bind fun params => params.lookup name

def extractGooglePlaceIdFromUrl (env : ParserEnv) (url : String) : Option String :=
  match ((searchParam env url "query_place_id").or (searchParam env url "place_id")).bind orNull with
  | some queryPlaceId => some (decodeGoogleValue queryPlaceId)
  | none =>
      match directMatch url with
      | some value => some (decodeGoogleValue value)
      | none => ((dataMatch url).filter looksLikeGooglePlaceId).map decodeGoogleValue

/-! ## Searching a payload -/

mutual

/-- The first text that satisfies the predicate, depth first. -/
def findString (predicate : String → Bool) : Json → Option String
  | .string value => if predicate value then some value else none
  | .array items => findStringInItems predicate items
  | .object fields => findStringInFields predicate fields
  | _ => none

def findStringInItems (predicate : String → Bool) : List Json → Option String
  | [] => none
  | item :: items =>
      ((findString predicate item).bind orNull).or (findStringInItems predicate items)

def findStringInFields (predicate : String → Bool) : JsonRecord → Option String
  | [] => none
  | (_, item) :: fields =>
      ((findString predicate item).bind orNull).or (findStringInFields predicate fields)

end

def isMapsUrl (env : ParserEnv) (value : String) : Bool :=
  let normalized := env.toLowerCase value
  includes normalized "google." && includes normalized "/maps"

def findMapsUrl (env : ParserEnv) (raw : JsonRecord) : Option String :=
  findString (isMapsUrl env) (.object raw)

def findGooglePlaceId (raw : JsonRecord) : Option String :=
  findString looksLikeGooglePlaceId (.object raw)

/-! ## Submitted items -/

structure ParsedGoogleSavedPlace where
  sourceKey : String
  title : Option String
  url : Option String
  googlePlaceId : Option String
  rawPayload : JsonRecord

/-- `{ ...item }`: the fields that are there, in the order of the class. -/
def GoogleSavedCollectionItem.spread (item : GoogleSavedCollectionItem) : JsonRecord :=
  [("sourceKey", item.sourceKey), ("title", item.title), ("name", item.name), ("url", item.url),
    ("placeUrl", item.placeUrl), ("googlePlaceId", item.googlePlaceId)].filterMap
      fun field => field.2.map fun value => (field.1, .string value)

def stableKey (env : ParserEnv) (values : List (Option String)) : String :=
  String.ofList ((env.sha256Hex
    (String.join (values.map fun value => value.getD "" ++ "\n"))).toList.take 32)

def parseSavedCollectionItem (env : ParserEnv) (item : GoogleSavedCollectionItem) :
    ParsedGoogleSavedPlace :=
  let rawPayload := item.rawPayload.getD item.spread
  let title := firstNonEmptyString [item.title, item.name]
  let url := firstNonEmptyString [item.url, item.placeUrl, findMapsUrl env rawPayload]
  let googlePlaceId := firstNonEmptyString [item.googlePlaceId,
    url.bind (extractGooglePlaceIdFromUrl env), findGooglePlaceId rawPayload]
  let sourceKey := (item.sourceKey.or googlePlaceId).getD
    (stableKey env [title, url, some (env.stringify (.object rawPayload))])
  { sourceKey, title, url, googlePlaceId, rawPayload }

/-! ## Documents of an archive -/

structure GoogleDataArchiveDocument where
  source : String
  payload : Json

def looksLikeSavedCollectionsSource (env : ParserEnv) (source : String) : Bool :=
  let normalized := env.toLowerCase source
  includes normalized "saved" || includes normalized "collection"

def keyAmong (env : ParserEnv) (keys : List String) (key : String) : Bool :=
  (keys.map env.toLowerCase).contains (env.toLowerCase key)

def hasAnyKey (env : ParserEnv) (raw : JsonRecord) (keys : List String) : Bool :=
  raw.any fun field => keyAmong env keys field.1

def isCandidate (env : ParserEnv) (raw : JsonRecord) : Bool :=
  ((findMapsUrl env raw).bind orNull).isSome || ((findGooglePlaceId raw).bind orNull).isSome ||
    hasAnyKey env raw ["title", "name", "placeName", "url", "placeUrl"]

mutual

def collectCandidateObjects (env : ParserEnv) : Json → List JsonRecord
  | .array items => collectInItems env items
  | .object fields =>
      if isCandidate env fields then fields :: collectInFields env fields
      else collectInFields env fields
  | _ => []

def collectInItems (env : ParserEnv) : List Json → List JsonRecord
  | [] => []
  | item :: items => collectCandidateObjects env item ++ collectInItems env items

def collectInFields (env : ParserEnv) : JsonRecord → List JsonRecord
  | [] => []
  | (_, item) :: fields => collectCandidateObjects env item ++ collectInFields env fields

end

/-- The first text of the record under one of the keys that is not blank. -/
def stringUnderKey (env : ParserEnv) (keys : List String) (raw : JsonRecord) : Option String :=
  raw.findSome? fun field =>
    match field.2 with
    | .string value => if keyAmong env keys field.1 && trim value != "" then some value else none
    | _ => none

mutual

/-- Of the record itself, and then of the records within it. -/
def findStringByKey (env : ParserEnv) (keys : List String) : Json → Option String
  | .object fields => (stringUnderKey env keys fields).or (findStringByKeyInFields env keys fields)
  | _ => none

def findStringByKeyInFields (env : ParserEnv) (keys : List String) : JsonRecord → Option String
  | [] => none
  | (_, .array items) :: fields =>
      (findStringByKeyInItems env keys items).or (findStringByKeyInFields env keys fields)
  | (_, item) :: fields =>
      (findStringByKey env keys item).or (findStringByKeyInFields env keys fields)

def findStringByKeyInItems (env : ParserEnv) (keys : List String) : List Json → Option String
  | [] => none
  | item :: items => (findStringByKey env keys item).or (findStringByKeyInItems env keys items)

end

/-- A candidate as an item: `none` where neither the source nor the candidate
looks like a saved place. -/
def candidateItem (env : ParserEnv) (source : String) (index : Nat) (candidate : JsonRecord) :
    Option (String × GoogleSavedCollectionItem) :=
  let url := findMapsUrl env candidate
  let googlePlaceId := findGooglePlaceId candidate
  if !looksLikeSavedCollectionsSource env source && url.isNone && googlePlaceId.isNone then none
  else
    let title := firstNonEmptyString
      [findStringByKey env ["title", "name", "placeName"] (.object candidate),
        findString (fun value => decide (0 < (trim value).length)) (.object candidate)]
    let sourceKey := (googlePlaceId.or url).getD
      (stableKey env [some source, some (toString index), some (env.stringify (.object candidate))])
    some (sourceKey, { sourceKey := some sourceKey, title, url, googlePlaceId,
                       rawPayload := some candidate })

/-- Of the candidates with one source key the first is an item. -/
def withoutSeen : List String → List (String × GoogleSavedCollectionItem) →
    List GoogleSavedCollectionItem
  | _, [] => []
  | seen, (sourceKey, item) :: items =>
      if seen.contains sourceKey then withoutSeen seen items
      else item :: withoutSeen (sourceKey :: seen) items

def parseSavedCollectionArchiveDocuments (env : ParserEnv)
    (documents : List GoogleDataArchiveDocument) : List GoogleSavedCollectionItem :=
  withoutSeen [] (documents.flatMap fun document =>
    (collectCandidateObjects env document.payload).zipIdx.filterMap fun candidate =>
      candidateItem env document.source candidate.2 candidate.1)

end Feca.Imports
