import Feca.Collections.OrderedMap
import Feca.Content.UserContext

/-! # What the network says of a place

Two readings of the visits to a place: the chips that nearby places carry, with
the boosts they are ranked by, and the social context of the place page. Both
read visits of anybody and drop those the viewer may not see.
-/

namespace Feca.Content

open Collections Concurrency Concurrency.Prog Relational Social

/-! ## Chips -/

structure NearbyFriendSocialRow where
  username : String
  avatarUrl : Option String
  snippet : String
  deriving DecidableEq, Repr

structure NearbyVisitChipSource where
  rating : Int
  wouldReturn : Option VisitWouldReturn
  displayName : String
  username : String
  visitedAt : Option Date
  deriving DecidableEq, Repr

def isWithinDays (now : Date) (visitedAt : Option Date) (days : Int) : Bool :=
  visitedAt.any fun visitedAt => now - visitedAt ≤ days * 86400000

def formatFriendSnippetFromVisit (now : Date) (visit : NearbyVisitChipSource) : String :=
  match visit.wouldReturn with
  | some .yes => "volvería a ir"
  | some .maybe => if visit.rating ≥ 4 then "le gustó" else "podría volver"
  | some .no => "pasó por acá"
  | none =>
      if isWithinDays now visit.visitedAt 21 then "visitó recientemente"
      else if visit.rating ≥ 4 then "le gustó"
      else "visitó el lugar"

def formatFriendSnippetFromSave (now createdAt : Date) : String :=
  if isWithinDays now (some createdAt) 5 then "lo guardó hace poco" else "quiere ir"

/-- `username.replace(/^@/, "")`. -/
def withoutAt (username : String) : String :=
  match username.toList with
  | '@' :: rest => String.ofList rest
  | _ => username

def formatNearbySocialChipLine (username snippet : String) : String :=
  let u := (orNull (trim (withoutAt username))).getD "user"
  match orNull (trim snippet) with
  | some s => "@" ++ u ++ " " ++ s
  | none => "@" ++ u

def formatNearbyVisitChip (now : Date) (visit : NearbyVisitChipSource) : String :=
  formatNearbySocialChipLine visit.username (formatFriendSnippetFromVisit now visit)

def scoreNearbyVisitSignal (now : Date) (visit : NearbyVisitChipSource) : Int :=
  visit.rating * 5 +
    (match visit.wouldReturn with
      | some .yes => 120
      | some .maybe => 55
      | some .no => -10
      | none => 0) +
    40 + (if isWithinDays now visit.visitedAt 14 then 12 else 0)

/-! ## Network signals -/

/-- `visit.user.displayName || visit.user.username`. -/
def UserRow.shownName (user : UserRow) : String := (orNull user.displayName).getD user.username

def chipSource (visit : VisitWithRelations) : NearbyVisitChipSource where
  rating := visit.rating
  wouldReturn := visit.wouldReturn
  displayName := visit.user.shownName
  username := visit.user.username
  visitedAt := some visit.visitedAt

structure SaveWithUser extends PlaceSave where
  user : UserRow
  deriving DecidableEq, Repr

structure NetworkSignal where
  userId : Id
  score : Int
  chip : String
  friendRow : NearbyFriendSocialRow
  deriving DecidableEq, Repr

/-- What the network says of one place. -/
structure PlaceSignals where
  chips : List String := []
  boost : Int := 0
  friendRows : List NearbyFriendSocialRow := []
  deriving DecidableEq, Repr

/-- The best visit of each user, users in the order of their latest visits. -/
def bestVisits (now : Date) (visits : List VisitWithRelations) : OrderedMap Id VisitWithRelations :=
  visits.foldl (fun userVisitMap v =>
    match userVisitMap.get v.userId with
    | none => userVisitMap.set v.userId v
    | some prev =>
        if scoreNearbyVisitSignal now (chipSource v) > scoreNearbyVisitSignal now (chipSource prev)
        then userVisitMap.set v.userId v
        else userVisitMap) .empty

def visitSignal (now : Date) (visit : VisitWithRelations) : NetworkSignal where
  userId := visit.userId
  score := scoreNearbyVisitSignal now (chipSource visit)
  chip := formatNearbyVisitChip now (chipSource visit)
  friendRow :=
    { username := visit.user.username
      avatarUrl := visit.user.avatarUrl
      snippet := formatFriendSnippetFromVisit now (chipSource visit) }

def visitBoost (visit : VisitWithRelations) : Int :=
  if visit.wouldReturn = some .yes then 26
  else if visit.wouldReturn = some .maybe ∧ visit.rating ≥ 4 then 16
  else if visit.rating ≥ 4 then 11
  else 7

def saveSignal (now : Date) (save : SaveWithUser) : NetworkSignal :=
  let saveSnippet := formatFriendSnippetFromSave now save.createdAt
  { userId := save.userId
    score := 26
    chip := formatNearbySocialChipLine save.user.username saveSnippet
    friendRow :=
      { username := save.user.username
        avatarUrl := save.user.avatarUrl
        snippet := saveSnippet } }

/-- The first signal of each user. -/
def firstOfEach : List NetworkSignal → List NetworkSignal
  | [] => []
  | signal :: rest => signal :: (firstOfEach rest).filter (·.userId != signal.userId)

/-- The signals of the place `pid`: one a user, the two best as chips. -/
def placeSignals (now : Date) (pid : Id) (visibleVisits : List VisitWithRelations)
    (visibleSaves : List SaveWithUser) : PlaceSignals :=
  let userVisitMap := bestVisits now (visibleVisits.filter (·.placeId == pid))
  let saves := visibleSaves.filter fun save =>
    save.placeId == pid && !userVisitMap.keys.contains save.userId
  let signals := (userVisitMap.values.map (visitSignal now) ++
    saves.map (saveSignal now)).insertionSort fun a b => b.score ≤ a.score
  let best := (firstOfEach signals).take 2
  { chips := best.map (·.chip)
    boost := min 56 ((userVisitMap.values.map visitBoost).sum + 14 * saves.length)
    friendRows := best.map (·.friendRow) }

/-- `Array.from(new Set(googlePlaceIds.filter((id) => Boolean(id && id.trim()))))`. -/
def askedIds (googlePlaceIds : List String) : List String :=
  distinctIds (googlePlaceIds.filter fun id => trim id != "")

namespace ContentDb

/-- `place.findMany` of the Google places with some of the ids. -/
def googlePlacesIn (s : ContentDb) (uniqueIds : List String) : List PlaceRow :=
  (s.places.rows.map s.placeRow).filter fun place =>
    place.source == .google && place.sourcePlaceId.any uniqueIds.contains

def savesWithUser (s : ContentDb) : List SaveWithUser :=
  s.saves.rows.filterMap fun save =>
    (s.findUserRow save.userId).map fun user => { save with user }

end ContentDb

/-- The signals of some places: by default nothing, and for every place found
what is known of it. -/
def signalsOf (now : Date) (uniqueIds : List String) (placeRows : List PlaceRow)
    (visibleVisits : List VisitWithRelations) (visibleSaves : List SaveWithUser) :
    OrderedMap String PlaceSignals :=
  placeRows.foldl (fun result row =>
    match row.sourcePlaceId.bind orNull with
    | none => result
    | some googleId =>
        result.set googleId (placeSignals now row.id visibleVisits visibleSaves))
    (uniqueIds.foldl (fun result id => result.set id {}) .empty)

def getNearbyNetworkSignalsForGooglePlaces (env : ContentEnv) (viewerId : Id)
    (googlePlaceIds : List String) : ContentProg (OrderedMap String PlaceSignals) := do
  let uniqueIds := askedIds googlePlaceIds
  if uniqueIds.length = 0 then pure (signalsOf env.now uniqueIds [] [] [])
  else
    ensureUserSettings env 0 viewerId
    let followingIds ← query fun s => s.followedIds viewerId
    if followingIds.length = 0 then pure (signalsOf env.now uniqueIds [] [] [])
    else
      let placeRows ← query fun s => s.googlePlacesIn uniqueIds
      let fecaIds := placeRows.map (·.id)
      let visits ← query fun s => (s.findVisits fun v =>
        fecaIds.contains v.placeId && followingIds.contains v.userId).take 600
      let saves ← query fun s => ((s.savesWithUser.filter fun v =>
        fecaIds.contains v.placeId && followingIds.contains v.userId).insertionSort
          fun a b => b.createdAt ≤ a.createdAt).take 400
      let visibleVisits := visits.filter (visibleVisit viewerId followingIds)
      let visibleSaves := saves.filter fun save =>
        canViewContent (normalizeSettings save.user.settings).activityVisibility
          (followingIds.contains save.userId)
      pure (signalsOf env.now uniqueIds placeRows visibleVisits visibleSaves)

/-! ## The place page -/

structure FollowerVisited where
  displayName : String
  userId : Id
  deriving DecidableEq, Repr

structure DiaryAppearance where
  diaryId : Id
  name : String
  visibility : GuideVisibility
  deriving DecidableEq, Repr

structure PlaceSocialContext where
  bestMoments : List String
  communityTags : List String
  diaryAppearances : List DiaryAppearance
  followersVisited : List FollowerVisited
  guideAppearances : List DiaryAppearance
  userPhotoUrls : List String
  deriving DecidableEq, Repr

def buildBestMoments (visits : List VisitWithRelations) : List String :=
  ((if visits.any (·.wifiQuality.getD 0 ≥ 4) then
      ["Bueno para trabajar con cafe y wifi estable"] else []) ++
    (if visits.any (·.noiseLevel.getD 5 ≤ 2) then
      ["Tranqui para leer o conversar sin apuro"] else []) ++
    (if visits.any (·.waitLevel.getD 5 ≤ 2) then
      ["Suele funcionar bien para una salida rápida"] else []) ++
    (if visits.any (·.tags.contains "brunch") then
      ["Aparece seguido en planes de brunch"] else []) ++
    (if (visits.filter (·.wouldReturn == some .yes)).length ≥ 2 then
      ["La comunidad volvería por café y experiencia"] else [])).take 4

/-- Whoever the viewer follows among the visitors, each once. -/
def followersVisited (followingIds : List Id) (visibleVisits : List VisitWithRelations) :
    List FollowerVisited :=
  ((visibleVisits.filter fun visit => followingIds.contains visit.userId).foldl
    (fun acc visit =>
      if acc.any (·.userId == visit.userId) then acc
      else acc ++ [⟨visit.user.shownName, visit.userId⟩]) []).take 6

/-- How often each tag occurs, in the order of first use. -/
def tagCounts (tags : List String) : OrderedMap String Nat :=
  tags.foldl (fun counts tag => counts.set tag ((counts.get tag).getD 0 + 1)) .empty

def communityTags (visibleVisits : List VisitWithRelations) : List String :=
  (((tagCounts (visibleVisits.flatMap (·.tags))).entries.insertionSort
    fun a b => b.2 ≤ a.2).take 8).map (·.1)

def userPhotoUrls (visibleVisits : List VisitWithRelations) : List String :=
  ((visibleVisits.flatMap (·.photoUrls)).filter (· != "")).take 12

/-- An entry of a diary, with the diary. -/
structure DiaryPlaceWithDiary extends DiaryPlace where
  diary : Diary
  deriving DecidableEq, Repr

/-- `publishedAt: "desc"`: what is not published comes first. -/
def publishedLater (a b : Option Date) : Prop :=
  match a, b with
  | none, some _ => True
  | some a, some b => b < a
  | _, none => False

instance : DecidableRel publishedLater := fun a b => by
  cases a <;> cases b <;> simp only [publishedLater] <;> infer_instance

def diaryAppearance (row : DiaryPlaceWithDiary) : DiaryAppearance where
  diaryId := row.diaryId
  name := row.diary.name
  visibility := row.diary.visibility

/-- The context of a place page: what the visible visits say, and the diaries. -/
def buildPlaceSocialContext (followingIds : List Id) (visibleVisits : List VisitWithRelations)
    (diaryRows : List DiaryPlaceWithDiary) : PlaceSocialContext :=
  let diaryAppearances := diaryRows.map diaryAppearance
  { bestMoments := buildBestMoments visibleVisits
    communityTags := communityTags visibleVisits
    diaryAppearances
    followersVisited := followersVisited followingIds visibleVisits
    guideAppearances := diaryAppearances
    userPhotoUrls := userPhotoUrls visibleVisits }

namespace ContentDb

variable (s : ContentDb)

def diaryPlacesWithDiary : List DiaryPlaceWithDiary :=
  s.diaryPlaces.rows.filterMap fun entry =>
    (s.diaries.rows.find? (·.id == entry.diaryId)).map fun diary => { entry with diary }

/-- The entries of a place in diaries that are public or the viewer's own. -/
def diaryRowsOf (viewerId placeId : Id) : List DiaryPlaceWithDiary :=
  ((s.diaryPlacesWithDiary.filter fun row =>
    row.placeId == placeId &&
      (row.diary.createdById == viewerId || row.diary.visibility == .«public»)).insertionSort
        fun a b => publishedLater a.diary.publishedAt b.diary.publishedAt ∨
          (a.diary.publishedAt = b.diary.publishedAt ∧ b.createdAt ≤ a.createdAt)).take 20

end ContentDb

def getPlaceSocialContext (env : ContentEnv) (viewerId placeId : Id) :
    ContentProg PlaceSocialContext := do
  ensureUserSettings env 0 viewerId
  let followingIds ← query fun s => s.followedIds viewerId
  let visits ← query fun s => (s.findVisits (·.placeId == placeId)).take 100
  let diaryRows ← query fun s => s.diaryRowsOf viewerId placeId
  pure (buildPlaceSocialContext followingIds
    (visits.filter (visibleVisit viewerId followingIds)) diaryRows)

end Feca.Content
