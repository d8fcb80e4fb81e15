import Feca.Collections.Fill
import Feca.Places.OutingPreferences

/-! # What a candidate scores

The score of a nearby candidate adds up what its distance, the tastes and the past
of the viewer, their outings, the opinion of Google and of the visitors, the network
and the admin say of it. In debugging the parts are returned beside the places.
-/

namespace Feca.Places

open Collections Content Social

/-! ## Tastes and categories -/

def TASTE_IDS : List String :=
  ["small_bar", "specialty_over_brunch", "reading_spots", "wifi_outlets", "terrace",
    "indoor_table", "quiet", "bright_light"]

/-- `needles.some((needle) => cats.some((c) => c.includes(needle)))`. -/
def hasNeedle (cats needles : List String) : Bool :=
  needles.any fun needle => cats.any fun c => includesText c needle

/-- What one taste adds. -/
def tastePoints (cats : List String) (intent : ExploreIntent) (id : String) : Nat :=
  if id = "reading_spots" then
    if intent = .reading ∨ hasNeedle cats ["cafe", "coffee", "library", "book_store", "bookshop"]
    then 10 else 0
  else if id = "wifi_outlets" then
    if intent = .work2h ∨ hasNeedle cats ["cafe", "coffee", "coworking"] then 8 else 0
  else if id = "quiet" then
    if intent = .reading ∨ intent = .firstDate ∨
      hasNeedle cats ["cafe", "coffee", "library", "tea"] then 6 else 0
  else if id = "specialty_over_brunch" then
    if intent = .brunchLong ∨ hasNeedle cats ["cafe", "coffee", "bakery", "breakfast", "brunch"]
    then 9 else 0
  else if id = "terrace" then
    if intent = .group4 ∨ hasNeedle cats ["restaurant", "bar", "pub", "beer"] then 4 else 0
  else if id = "indoor_table" then
    if intent = .firstDate ∨ hasNeedle cats ["restaurant", "wine", "bistro"] then 4 else 0
  else if id = "small_bar" then
    if hasNeedle cats ["bar", "pub", "wine_bar", "cocktail"] then 8 else 0
  else if id = "bright_light" then
    if intent = .brunchLong ∨ intent = .reading ∨ hasNeedle cats ["cafe", "coffee", "bakery"]
    then 3 else 0
  else 0

def scoreTasteAgainstPlace (env : ContentEnv) (tasteIds categories : List String)
    (intent : ExploreIntent) : Nat :=
  ((tasteIds.filter TASTE_IDS.contains).map
    (tastePoints (categories.map env.toLowerCase) intent)).sum

/-- `replace(/[_-]+/g, " ")`: one blank for a run. -/
def blankRuns : Bool → List Char → List Char
  | _, [] => []
  | inRun, c :: cs =>
    if c = '_' ∨ c = '-' then if inRun then blankRuns true cs else ' ' :: blankRuns true cs
    else c :: blankRuns false cs

def normalizeCategory (env : ContentEnv) (value : String) : String :=
  String.ofList (blankRuns false (env.toLowerCase (trim value)).toList)

/-- Equal, or one within the other. -/
def categoriesMatch (category preferred : String) : Bool :=
  category == preferred || includesText category preferred || includesText preferred category

def scoreCategoryAffinityAgainstPlace (env : ContentEnv)
    (preferredCategories categories : List String) : Nat :=
  let candidateCategories := (categories.map (normalizeCategory env)).filter (· != "")
  let preferred :=
    ((distinctIds (preferredCategories.map (normalizeCategory env))).filter (· != "")).take 16
  min ((preferred.filter fun p => candidateCategories.any (categoriesMatch · p)).length * 7) 34

def isSimilarToLikedCategories (env : ContentEnv) (place : GooglePlaceSummary)
    (likedCategories : List String) : Bool :=
  likedCategories.any fun liked =>
    (place.types.map env.toLowerCase).any (categoriesMatch · liked)

/-! ## Priorities -/

def parsePlacePriorities : Json → Option (List Json)
  | .object p =>
    match p.lookup "placePriorities" with
    | some (.array raw) => if raw.length > 0 then some raw else none
    | _ => none
  | _ => none

/-- The first priorities name it. -/
def isTopPriority (priorities : Option (List Json)) (key : String) : Bool :=
  has ((priorities.getD []).take 3) key

def tasteScoreMultiplier (priorities : Option (List Json)) : Rat :=
  if isTopPriority priorities "atmosphere" || isTopPriority priorities "quiet" then 135 / 100
  else 1

def distanceScoreMultiplier (priorities : Option (List Json)) : Rat :=
  if isTopPriority priorities "distance" then 14 / 10 else 1

def buildNearbyPlaceScore (env : ContentEnv) (lat lng : Rat) (place : GooglePlaceSummary)
    (index : Nat) (placePriorities : Option (List Json)) : Rat :=
  180 - env.distanceInMeters lat lng place.lat place.lng / 45 *
    distanceScoreMultiplier placePriorities + place.rating.getD 0 * 8 +
    (if place.openNow = some true then 34 else 0) - index * (35 / 100)

def scorePlacePrioritiesAgainstPlace (env : ContentEnv) (priorities : Option (List Json))
    (place : GooglePlaceSummary) (distanceMeters : Rat) : Nat :=
  let types := place.types.map env.toLowerCase
  (if isTopPriority priorities "food_drink" ∧
      hasNeedle types ["restaurant", "cafe", "bakery", "bar"] then 18 else 0) +
  (if isTopPriority priorities "atmosphere" ∧ 43 / 10 ≤ place.rating.getD 0 then 16 else 0) +
  (if isTopPriority priorities "quiet" ∧ hasNeedle types ["cafe", "library", "book"] then 14
    else 0) +
  (if isTopPriority priorities "service" ∧ 50 ≤ place.userRatingCount.getD 0 then 10 else 0) +
  (if isTopPriority priorities "distance" ∧ distanceMeters < 800 then 16
    else if isTopPriority priorities "distance" ∧ distanceMeters < 1500 then 8 else 0)

/-! ## Quality and boosts -/

def scoreGoogleQualityPenalty (place : GooglePlaceSummary) : Int :=
  let count := place.userRatingCount.getD 0
  if place.rating.any (fun rating => decide (rating < 38 / 10)) ∧ 5 ≤ count then -25
  else if 0 < count ∧ count < 15 then -10
  else 0

def scoreFecaPlaceQuality : Option FecaPlaceQualityStats → Int
  | none => 0
  | some stats =>
    if stats.visitCount = 0 then 0
    else if stats.avgRating.any (fun avg => decide (45 / 10 ≤ avg)) ∧ 3 ≤ stats.visitCount then
      15 + min 10 (stats.visitCount - 3 : Nat)
    else if stats.avgRating.any (fun avg => decide (avg < 3)) then -20
    else if 2 ≤ stats.wouldReturnNoCount ∧ stats.wouldReturnYesCount < stats.wouldReturnNoCount
      then -20
    else if stats.avgRating.any (fun avg => decide (4 ≤ avg)) ∧ 2 ≤ stats.visitCount then 8
    else 0

def ADMIN_BOOST_CAP : Int := 45
def LIKED_VISIT_AFFINITY_BOOST : Int := 30
def SIMILAR_TO_LIKED_BOOST : Int := 20

def scaleAdminBoostScore (boostScore : Int) : Int :=
  if boostScore ≤ 0 then 0
  else min ADMIN_BOOST_CAP (mathRound (boostScore * (ADMIN_BOOST_CAP / 100)))

def networkBoostScoreForVariant (variant : Option NearbyVariant) (rawBoost : Int) : Rat :=
  if variant = some .homeNetwork then min 56 (rawBoost : Rat)
  else if variant = some .homeFriendsLiked then min 72 (rawBoost * (245 / 100) + 6)
  else 0

def scoreExploreIntent (intent : ExploreIntent) (place : GooglePlaceSummary)
    (distanceMeters : Rat) : Rat :=
  let isCafe := place.types.contains "cafe" || place.primaryType == some "cafe"
  let isRestaurant := place.types.contains "restaurant" || place.primaryType == some "restaurant"
  100 - distanceMeters / 60 + place.rating.getD 0 * 8 +
    match intent with
    | .openNow => if place.openNow = some true then 18 else 0
    | .work2h => if isCafe then 18 else 4
    | .brunchLong => if isRestaurant then 18 else 8
    | .solo => if isCafe then 14 else 6
    | .firstDate => if 43 / 10 ≤ place.rating.getD 0 then 16 else 6
    | .snackFast => if distanceMeters < 1200 then 18 else 4
    | .reading => if isCafe then 16 else 4
    | .group4 => if isRestaurant then 14 else 8

/-! ## The parts of a score -/

/-- `NearbyRankingContext`, with what the score is made of. -/
structure NearbyScoringContext where
  tastePreferenceIds : List String
  importedPlaceCategoryIds : List String
  likedVisitedPlaceCategoryIds : List String
  dislikedVisitedPlaceCategoryIds : List String
  outingPreferences : Json
  inferredIntent : ExploreIntent
  explicitExploreIntent : Option ExploreIntent := none
  likedNearbyGooglePlaceIds : OrderedSet String
  fecaQualityByGoogleId : OrderedMap String FecaPlaceQualityStats
  adminBoostByGoogleId : OrderedMap String Int
  curatedGoogleIds : OrderedSet String
  cityPickPlaces : List GooglePlaceSummary
  networkBoostByGoogleId : OrderedMap String Int
  debugScores : Bool := false

structure ScoreComponentBreakdown where
  distance : Rat
  taste : Int
  importedAffinity : Int
  visitedAffinity : Int
  visitedPenalty : Int
  outing : Int
  priorities : Int
  googleQuality : Int
  fecaQuality : Int
  network : Rat
  adminBoost : Int
  likedVisit : Int
  similarToLiked : Int
  deriving DecidableEq, Repr

structure NearbyScoreBreakdown extends ScoreComponentBreakdown where
  googlePlaceId : String
  name : String
  baseScore : Rat
  jitter : Rat
  finalScore : Rat
  deriving DecidableEq, Repr

structure NearbyRanking where
  places : List GooglePlaceSummary
  debugScores : Option (List NearbyScoreBreakdown) := none

def ONBOARDING_PAST_TASTE_BOOST : Rat := 24 / 10
def ONBOARDING_PAST_PRIORITY_BOOST : Rat := 19 / 10
def ONBOARDING_PAST_OUTING_BOOST : Rat := 16 / 10

/-- `onboardingPast ? boost : 1`. -/
def onboardingFactor (variant : Option NearbyVariant) (boost : Rat) : Rat :=
  if isOnboardingPast variant then boost else 1

namespace NearbyScoringContext

variable (context : NearbyScoringContext)

def placePriorities : Option (List Json) := parsePlacePriorities context.outingPreferences

def scoringIntent : ExploreIntent := context.explicitExploreIntent.getD context.inferredIntent

def hasPersonalization : Bool :=
  decide (context.tastePreferenceIds.length > 0) ||
    decide ((context.placePriorities.getD []).length > 0) ||
    decide (context.likedVisitedPlaceCategoryIds.length > 0) ||
    decide (context.likedNearbyGooglePlaceIds.keys.length > 0) ||
    decide (context.importedPlaceCategoryIds.length > 0)

def networkScore (variant : Option NearbyVariant) (googlePlaceId : String) : Rat :=
  let rawBoost := (context.networkBoostByGoogleId.get googlePlaceId).getD 0
  if useNetworkInRank variant then networkBoostScoreForVariant variant rawBoost
  else if variant = some .homeNearby ∨ variant = some .homeOpenNow then
    min 18 (mathRound (rawBoost * (35 / 100)) : Int)
  else 0

/-- The parts; `outing` is what the outing preferences are worth. -/
def breakdown (env : ContentEnv) (input : NearbyRankingInput) (outing : Nat)
    (place : GooglePlaceSummary) : ScoreComponentBreakdown :=
  let distance := env.distanceInMeters input.lat input.lng place.lat place.lng
  let likedVisit :=
    if context.likedNearbyGooglePlaceIds.has place.googlePlaceId then LIKED_VISIT_AFFINITY_BOOST
    else 0
  { distance
    taste := mathRound (scoreTasteAgainstPlace env context.tastePreferenceIds place.types
      context.scoringIntent * tasteScoreMultiplier context.placePriorities *
        onboardingFactor input.variant ONBOARDING_PAST_TASTE_BOOST)
    importedAffinity :=
      scoreCategoryAffinityAgainstPlace env context.importedPlaceCategoryIds place.types
    visitedAffinity := mathRound (scoreCategoryAffinityAgainstPlace env
      context.likedVisitedPlaceCategoryIds place.types * (15 / 10))
    visitedPenalty := mathRound (scoreCategoryAffinityAgainstPlace env
      context.dislikedVisitedPlaceCategoryIds place.types * (16 / 10))
    outing := mathRound (outing * onboardingFactor input.variant ONBOARDING_PAST_OUTING_BOOST)
    priorities := mathRound (scorePlacePrioritiesAgainstPlace env context.placePriorities place
      distance * onboardingFactor input.variant ONBOARDING_PAST_PRIORITY_BOOST)
    googleQuality := if homeMix input.variant then scoreGoogleQualityPenalty place else 0
    fecaQuality := scoreFecaPlaceQuality (context.fecaQualityByGoogleId.get place.googlePlaceId)
    network := context.networkScore input.variant place.googlePlaceId
    adminBoost := scaleAdminBoostScore
      ((context.adminBoostByGoogleId.get place.googlePlaceId).getD 0)
    likedVisit
    similarToLiked :=
      if likedVisit = 0 ∧
        isSimilarToLikedCategories env place context.likedVisitedPlaceCategoryIds then
        SIMILAR_TO_LIKED_BOOST
      else 0 }

def distanceBase (env : ContentEnv) (input : NearbyRankingInput) (place : GooglePlaceSummary) :
    Rat :=
  match context.explicitExploreIntent with
  | some intent => scoreExploreIntent intent place
      (env.distanceInMeters input.lat input.lng place.lat place.lng)
  | none => buildNearbyPlaceScore env input.lat input.lng place 0 context.placePriorities

end NearbyScoringContext

/-- The parts, added up. -/
def ScoreComponentBreakdown.total (b : ScoreComponentBreakdown) : Rat :=
  b.taste + b.importedAffinity + b.visitedAffinity - b.visitedPenalty + b.outing + b.priorities +
    b.googleQuality + b.fecaQuality + b.network + b.adminBoost + b.likedVisit + b.similarToLiked

namespace NearbyScoringContext

variable (context : NearbyScoringContext)

def baseScore (env : ContentEnv) (input : NearbyRankingInput) (outing : Nat)
    (place : GooglePlaceSummary) : Rat :=
  context.distanceBase env input place + (context.breakdown env input outing place).total

/-- What the ranking depends on. -/
def ranking (env : ContentEnv) (input : NearbyRankingInput) (outing : Nat) :
    NearbyRankingContext where
  baseScore := context.baseScore env input outing
  hasPersonalization := context.hasPersonalization
  fecaQualityByGoogleId := context.fecaQualityByGoogleId
  adminBoostByGoogleId := context.adminBoostByGoogleId
  curatedGoogleIds := context.curatedGoogleIds
  cityPickPlaces := context.cityPickPlaces

end NearbyScoringContext

/-! ## The ranking with its scores -/

/-- The candidates as they are ranked. -/
def rankedCandidates (env : RankingEnv) (userId : Id) (input : NearbyRankingInput)
    (context : NearbyRankingContext) (work : List GooglePlaceSummary) :
    List (ScoredCandidate GooglePlaceSummary) :=
  rankCandidatesWithRotation env.toContentEnv (work.map fun place =>
    { baseScore := context.baseScore place, id := place.googlePlaceId, item := place })
    (rotationOptions env userId input context work)

def noBreakdown : ScoreComponentBreakdown :=
  { distance := 0, taste := 0, importedAffinity := 0, visitedAffinity := 0, visitedPenalty := 0,
    outing := 0, priorities := 0, googleQuality := 0, fecaQuality := 0, network := 0,
    adminBoost := 0, likedVisit := 0, similarToLiked := 0 }

def debugRow (breakdownById : OrderedMap String ScoreComponentBreakdown)
    (entry : ScoredCandidate GooglePlaceSummary) : NearbyScoreBreakdown :=
  { (breakdownById.get entry.id).getD noBreakdown with
    googlePlaceId := entry.id
    name := entry.item.name
    baseScore := entry.baseScore
    jitter := entry.score - entry.baseScore
    finalScore := entry.score }

/-- `rankNearbyPlaceResults`; it fails where the outing preferences cannot be read. -/
def rankScoredNearbyPlaces (env : RankingEnv) (userId : Id) (input : NearbyRankingInput)
    (places : List GooglePlaceSummary) (context : NearbyScoringContext) :
    Except Thrown NearbyRanking :=
  -- which candidates are ranked does not depend on what they score
  let work := qualified input.variant (context.ranking env.toContentEnv input 0) places
  if work.length = 0 then .ok { places := [] }
  else do
    let outing ← scoreOutingAgainstIntent context.scoringIntent context.outingPreferences
    let ranking := context.ranking env.toContentEnv input outing
    let finalPlaces := rankNearbyPlaceResults env userId input places ranking
    if !context.debugScores then pure { places := finalPlaces }
    else
      let breakdownById := setEach (fun place : GooglePlaceSummary => some place.googlePlaceId)
        (context.breakdown env.toContentEnv input outing) .empty work
      pure
        { places := finalPlaces
          debugScores := some (((rankedCandidates env userId input ranking work).filter fun entry =>
            hasId entry.id finalPlaces).map (debugRow breakdownById)) }

end Feca.Places
