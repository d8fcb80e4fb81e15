import Feca.Content.PlaceContext

/-! # Diaries and guides

`SocialDiariesService` and the repository under it, with the guide a weekly
digest recommends. A diary is private, unlisted or public; the settings of its
owner decide besides who may see it at all.
-/

namespace Feca.Content

open Concurrency Concurrency.Prog Relational Social

structure EntryWithPlace extends DiaryPlace where
  place : PlaceRow
  deriving DecidableEq, Repr

/-- `diaryInclude`. -/
structure DiaryWithRelations extends Diary where
  createdBy : UserRow
  places : List EntryWithPlace
  deriving DecidableEq, Repr

/-- `orderBy: [{ position: "asc" }, { createdAt: "asc" }]`. -/
def entryBefore (a b : DiaryPlace) : Prop :=
  a.position < b.position ∨ (a.position = b.position ∧ a.createdAt ≤ b.createdAt)

instance : DecidableRel entryBefore := fun a b => by
  unfold entryBefore
  infer_instance

/-- `orderBy: [{ publishedAt: "desc" }, { createdAt: "desc" }]`. -/
def newerDiary (a b : DiaryWithRelations) : Prop :=
  publishedLater a.publishedAt b.publishedAt ∨
    (a.publishedAt = b.publishedAt ∧ b.createdAt ≤ a.createdAt)

instance : DecidableRel newerDiary := fun a b => by
  unfold newerDiary
  infer_instance

namespace ContentDb

variable (s : ContentDb)

def entriesOf (diaryId : Id) : List EntryWithPlace :=
  ((s.diaryPlaces.rows.filter (·.diaryId == diaryId)).insertionSort entryBefore).filterMap
    fun entry => (s.findPlaceRow entry.placeId).map fun place => { entry with place }

def diaryWithRelations (diary : Diary) : Option DiaryWithRelations :=
  (s.findUserRow diary.createdById).map fun createdBy =>
    { diary with createdBy, places := s.entriesOf diary.id }

/-- `diary.findMany` with `diaryInclude`. -/
def findDiaries (p : DiaryWithRelations → Bool) : List DiaryWithRelations :=
  ((s.diaries.rows.filterMap s.diaryWithRelations).filter p).insertionSort newerDiary

/-- `diary.findUnique` with `diaryInclude`. -/
def findDiaryById (diaryId : Id) : Option DiaryWithRelations :=
  (s.diaries.rows.find? (·.id == diaryId)).bind s.diaryWithRelations

end ContentDb

/-! ## Presentation -/

structure OrderedPlaceView where
  note : Option String
  place : PlaceSummary
  position : Int
  deriving DecidableEq, Repr

structure DiaryView where
  createdAt : String
  createdBy : UserPublic
  coverImageUrl : Option String
  description : Option String
  editorialReason : Option String
  id : Id
  intro : Option String
  name : String
  orderedPlaces : List OrderedPlaceView
  places : List PlaceSummary
  publishedAt : Option String
  visibility : GuideVisibility
  deriving DecidableEq, Repr

def serializeDiary (env : ContentEnv) (diary : DiaryWithRelations) : DiaryView :=
  let orderedPlaces := diary.places.insertionSort fun a b =>
    entryBefore a.toDiaryPlace b.toDiaryPlace
  { createdAt := env.toISOString diary.createdAt
    createdBy := serializeUserPublic diary.createdBy.toUser
    coverImageUrl := diary.coverImageUrl
    description := diary.description
    editorialReason := diary.editorialReason
    id := diary.id
    intro := diary.intro
    name := diary.name
    orderedPlaces := orderedPlaces.map fun entry =>
      { note := entry.note
        place := serializePlaceSummary entry.place
        position := entry.position }
    places := orderedPlaces.map fun entry => serializePlaceSummary entry.place
    publishedAt := diary.publishedAt.map env.toISOString
    visibility := diary.visibility }

structure DiaryListing where
  diaries : List DiaryView
  total : Nat
  deriving DecidableEq, Repr

/-! ## Visibility -/

def canViewDiary (viewerId : Id) (diary : Diary) (allowUnlisted : Bool) : Bool :=
  viewerId == diary.createdById || diary.visibility == .«public» ||
    (allowUnlisted && diary.visibility == .unlisted)

def filterVisibleDiaries (diaries : List DiaryWithRelations) (viewerId : Id)
    (allowUnlisted : Bool) : List DiaryWithRelations :=
  diaries.filter fun diary => canViewDiary viewerId diary.toDiary allowUnlisted

/-- The owner is the viewer, has no settings, or settings that let the viewer in. -/
def buildDiaryOwnerVisibilityWhere (s : ContentDb) (viewerId : Id) (diary : DiaryWithRelations) :
    Bool :=
  diary.createdById == viewerId || diary.createdBy.settings.isNone ||
    diary.createdBy.settings.any (·.diaryVisibility == .«public») ||
    (s.isFollowing viewerId diary.createdBy.id &&
      diary.createdBy.settings.any (·.diaryVisibility == .followers))

/-! ## The service -/

/-- What searching depends on: how the database compares texts, and the runtime
folds their case. -/
structure DiaryEnv extends ContentEnv where
  /-- `{ contains: query, mode: "insensitive" }`. -/
  containsInsensitive : String → String → Bool
  toLocaleLowerCase : String → String

structure SearchDiariesQuery extends PaginationInput where
  q : Option String := none
  deriving DecidableEq, Repr

/-- `value.replace(/\s+/g, " ")`: one space for each run of blanks. -/
def collapseSpaces : List Char → List Char
  | [] => []
  | [c] => if isJsSpace c then [' '] else [c]
  | c :: d :: rest =>
      if isJsSpace c then
        if isJsSpace d then collapseSpaces (d :: rest) else ' ' :: collapseSpaces (d :: rest)
      else c :: collapseSpaces (d :: rest)

/-- `normalizeRequiredSearchQuery`, for a search that keeps a leading `@`. -/
def normalizeRequiredSearchQuery (query : Option String) (message : String) :
    ContentProg String :=
  let normalized := String.ofList (collapseSpaces (trim (query.getD "")).toList)
  if utf16Length normalized < 2 then .fail (.http (BadRequestException message))
  else pure normalized

/-- `value.includes(query)`. -/
def includesText (value query : String) : Bool := value.toList.tails.any query.toList.isPrefixOf

/-- What one field adds to the score of a match. -/
def fieldScore (env : DiaryEnv) (normalizedQuery value : String) (containsScore startsWithScore : Nat) :
    Nat :=
  let normalizedValue := env.toLocaleLowerCase value
  if normalizedValue = "" then 0
  else if normalizedQuery.toList.isPrefixOf normalizedValue.toList then startsWithScore
  else if includesText normalizedValue normalizedQuery then containsScore
  else 0

def scoreDiarySearchMatch (env : DiaryEnv) (query : String) (diary : Diary) : Nat :=
  let normalizedQuery := env.toLocaleLowerCase query
  fieldScore env normalizedQuery diary.name 24 36 +
    fieldScore env normalizedQuery (diary.intro.getD "") 14 20 +
    fieldScore env normalizedQuery (diary.description.getD "") 10 16

/-- The order of the matches: score, publication, creation. -/
def betterMatch (env : DiaryEnv) (query : String) (left right : DiaryWithRelations) : Prop :=
  let score := fun diary : DiaryWithRelations => scoreDiarySearchMatch env query diary.toDiary
  score right < score left ∨ (score right = score left ∧
    (right.publishedAt.getD 0 < left.publishedAt.getD 0 ∨
      (right.publishedAt.getD 0 = left.publishedAt.getD 0 ∧ right.createdAt ≤ left.createdAt)))

instance (env : DiaryEnv) (query : String) : DecidableRel (betterMatch env query) := fun a b => by
  unfold betterMatch
  infer_instance

def matchesSearch (env : DiaryEnv) (q : String) (diary : Diary) : Bool :=
  env.containsInsensitive diary.name q || diary.description.any (env.containsInsensitive · q) ||
    diary.intro.any (env.containsInsensitive · q)

def searchWhere (env : DiaryEnv) (s : ContentDb) (viewerId : Id) (q : String)
    (diary : DiaryWithRelations) : Bool :=
  diary.visibility == .«public» && buildDiaryOwnerVisibilityWhere s viewerId diary &&
    matchesSearch env (trim q) diary.toDiary

def searchPublicDiaries (env : DiaryEnv) (userId : Id) (query : SearchDiariesQuery) :
    ContentProg DiaryListing := do
  let normalizedQuery ←
    normalizeRequiredSearchQuery query.q "q must have at least 2 characters"
  let diaries ← Prog.query fun s => s.findDiaries (searchWhere env s userId normalizedQuery)
  let total ← Prog.query fun s =>
    (s.findDiaries (searchWhere env s userId normalizedQuery)).length
  let sorted := diaries.insertionSort (betterMatch env normalizedQuery)
  pure
    { diaries := ((sorted.drop query.offset).take query.limit).map (serializeDiary env.toContentEnv)
      total }

def listUserDiaries (env : ContentEnv) (viewerId userId : Id) : ContentProg DiaryListing := do
  match ← findUserByIdWithContext env viewerId userId with
  | none => .fail (.http (NotFoundException "User not found"))
  | some profile =>
      if !profile.permissions.canViewDiaries then pure ⟨[], 0⟩
      else
        let stored ← query fun s => s.findDiaries (·.createdById == userId)
        let diaries := filterVisibleDiaries stored viewerId false
        pure ⟨diaries.map (serializeDiary env), diaries.length⟩

def homeGuideWhere (s : ContentDb) (viewerId : Id) (diary : DiaryWithRelations) : Bool :=
  diary.createdBy.isEditor && diary.publishedAt.isSome && diary.visibility == .«public» &&
    buildDiaryOwnerVisibilityWhere s viewerId diary

def listHomeEditorGuides (env : ContentEnv) (viewerId : Id) (limit : Nat) :
    ContentProg DiaryListing := do
  let diaries ← query fun s => (s.findDiaries (homeGuideWhere s viewerId)).take limit
  pure ⟨diaries.map (serializeDiary env), diaries.length⟩

/-- What `getDiary` answers once the diary is found. -/
def answerDiary (env : ContentEnv) (viewerId : Id) (diary : DiaryWithRelations) :
    ContentProg DiaryView :=
  if !canViewDiary viewerId diary.toDiary true then
    .fail (.http (ForbiddenException none "Diary is private"))
  else if viewerId = diary.createdById then pure (serializeDiary env diary)
  else do
    let owner ← findUserByIdWithContext env viewerId diary.createdById
    if owner.any (·.permissions.canViewDiaries) then pure (serializeDiary env diary)
    else .fail (.http (NotFoundException "Diary not found"))

def getDiary (env : ContentEnv) (viewerId diaryId : Id) : ContentProg DiaryView := do
  match ← query fun s => s.findDiaryById diaryId with
  | none => .fail (.http (NotFoundException "Diary not found"))
  | some diary => answerDiary env viewerId diary

/-! ## The weekly digest -/

structure WeeklyDigest where
  body : String
  deepLink : String
  diaryCount : Nat
  guideId : Option Id
  guideName : Option String
  title : String
  visitCount : Nat
  deriving DecidableEq, Repr

def pluralSuffix (count : Nat) : String := if count = 1 then "" else "s"

def buildWeeklyDigestBody (city : Option String) (diaryCount : Nat) (guideName : Option String)
    (visitCount : Nat) : String :=
  " ".intercalate
    ((if visitCount > 0 then ["Tu red compartió " ++ toString visitCount ++ " visita" ++
        pluralSuffix visitCount ++ " en los últimos 7 días."] else []) ++
      (if diaryCount > 0 then ["También aparecieron " ++ toString diaryCount ++ " guía" ++
        pluralSuffix diaryCount ++ " nueva" ++ pluralSuffix diaryCount ++ "."] else []) ++
      ((guideName.bind orNull).map fun guideName =>
        match city.bind orNull with
        | some city => "Te dejamos " ++ guideName ++ " para " ++ city ++ "."
        | none => "Te dejamos " ++ guideName ++ " para inspirarte.").toList)

/-- What a guide of the digest is: an editor's, published, public, of the city if
one is given. -/
def weeklyGuideWhere (cityId : Option Id) (diary : DiaryWithRelations) : Bool :=
  diary.createdBy.isEditor && cityId.all (fun cityId => diary.featuredCityId == some cityId) &&
    diary.publishedAt.isSome && diary.visibility == .«public»

/-- The guide featured in the city, where the user has one. -/
def findCityGuide (cityId : Option Id) : ContentProg (Option DiaryWithRelations) :=
  match cityId.bind orNull with
  | none => pure none
  | some cityId => query fun s => (s.findDiaries (weeklyGuideWhere (some cityId))).head?

def findWeeklyGuide (cityId : Option Id) : ContentProg (Option DiaryWithRelations) := do
  match ← findCityGuide cityId with
  | some guide => pure (some guide)
  | none => query fun s => (s.findDiaries (weeklyGuideWhere none)).head?

/-- What `runWeeklyDigests` tells one user who is due, if there is anything to tell. -/
def weeklyDigest (now : Date) (user : User) : ContentProg (Option WeeklyDigest) := do
  let since := now - 7 * 24 * 60 * 60 * 1000
  let followedIds ← query fun s => s.followedIds user.id
  let visitCount ← query fun s => s.countVisits fun visit =>
    decide (visit.createdAt ≥ since) && networkWhere followedIds visit
  let diaryCount ← query fun s => (s.diaries.rows.filter fun diary =>
    followedIds.contains diary.createdById && diary.publishedAt.any (· ≥ since) &&
      diary.visibility == .«public»).length
  let guide ← findWeeklyGuide user.cityId
  if visitCount = 0 ∧ diaryCount = 0 ∧ guide.isNone then pure none
  else
    pure (some
      { body := buildWeeklyDigestBody user.city diaryCount (guide.map (·.name)) visitCount
        deepLink := match guide with
          | some guide => "/diary/" ++ guide.id
          | none => "/notifications"
        diaryCount
        guideId := guide.map (·.id)
        guideName := guide.map (·.name)
        title := "Resumen semanal"
        visitCount })

end Feca.Content
