import Feca.Collections.Spread
import Feca.Content.Diaries
import Feca.Places.NearbyHelpers

/-! # Ranking a nearby list

The candidates are ranked by a score, neighbours of one category are set apart,
and the first slots go to the curated places: city picks, which need not be
candidates at all, and candidates with a boost. What a candidate scores is a
parameter.
-/

namespace Feca.Places

open Collections Content Social

inductive NearbyVariant
  | homeCity
  | homeNetwork
  | homeNearby
  | homeOpenNow
  | homeFriendsLiked
  | onboardingPast
  deriving DecidableEq, Repr

/-- The text a variant has in the query. -/
def NearbyVariant.text : NearbyVariant → String
  | .homeCity => "home_city"
  | .homeNetwork => "home_network"
  | .homeNearby => "home_nearby"
  | .homeOpenNow => "home_open_now"
  | .homeFriendsLiked => "home_friends_liked"
  | .onboardingPast => "onboarding_past"

structure NearbyRankingInput where
  lat : Rat
  lng : Rat
  limit : Rat
  type : Option String := none
  variant : Option NearbyVariant := none
  rotate : Option Rat := none

structure FecaPlaceQualityStats where
  visitCount : Nat
  avgRating : Option Rat
  wouldReturnYesCount : Nat
  wouldReturnNoCount : Nat

structure NearbyRankingContext where
  /-- The score of a candidate before its jitter. -/
  baseScore : GooglePlaceSummary → Rat
  hasPersonalization : Bool
  fecaQualityByGoogleId : OrderedMap String FecaPlaceQualityStats
  adminBoostByGoogleId : OrderedMap String Int
  curatedGoogleIds : OrderedSet String
  cityPickPlaces : List GooglePlaceSummary

structure RankingEnv extends ContentEnv where
  /-- `Date.UTC(year, 0, 1)`. -/
  startOfYear : Nat → Date

def MAX_FORCED_CITY_PICKS : Nat := 4
def MAX_CURATED_SLOTS_IN_TOP : Nat := 5

/-! ## Quality -/

def shouldExcludeByFecaQuality (stats : Option FecaPlaceQualityStats) : Bool :=
  stats.any fun stats =>
    !decide (stats.visitCount < 2) &&
      (stats.avgRating.any (fun rating => decide (rating < 5 / 2)) ||
        (decide (3 ≤ stats.wouldReturnNoCount) &&
          decide (stats.wouldReturnYesCount * 2 < stats.wouldReturnNoCount)))

def shouldExcludeLowQualityGooglePlace (place : GooglePlaceSummary) : Bool :=
  place.rating.any fun rating =>
    decide (rating < 7 / 2) ||
      (decide (rating < 19 / 5) && decide (10 ≤ place.userRatingCount.getD 0))

/-- `curatedGoogleIds` and the keys of the boosts. -/
def isProtected (context : NearbyRankingContext) (googlePlaceId : String) : Bool :=
  context.curatedGoogleIds.has googlePlaceId || context.adminBoostByGoogleId.has googlePlaceId

def hasQuality (context : NearbyRankingContext) (place : GooglePlaceSummary) : Bool :=
  isProtected context place.googlePlaceId ||
    (!shouldExcludeByFecaQuality (context.fecaQualityByGoogleId.get place.googlePlaceId) &&
      !shouldExcludeLowQualityGooglePlace place)

/-! ## Variants -/

def useNetworkInRank (variant : Option NearbyVariant) : Bool :=
  variant == some .homeNetwork || variant == some .homeFriendsLiked

def isOnboardingPast (variant : Option NearbyVariant) : Bool := variant == some .onboardingPast

def homeMix (variant : Option NearbyVariant) : Bool :=
  !useNetworkInRank variant &&
    (variant == none || variant == some .homeCity || variant == some .homeNearby ||
      variant == some .homeOpenNow || isOnboardingPast variant)

/-- `homeMix && !onboardingPast`: the lists whose first slots are the curated ones. -/
def pinsCurations (variant : Option NearbyVariant) : Bool :=
  homeMix variant && !isOnboardingPast variant

/-! ## Rotation -/

def utcWeekBucketId (env : RankingEnv) (now : Date) : String :=
  let y := env.getUTCFullYear now
  toString y ++ "w" ++ toString ((now - env.startOfYear y) / 86400000 / 7)

def buildPlacesRankingSeed (env : RankingEnv) (userId : Id) (scope : String)
    (input : NearbyRankingInput) : String :=
  let v := (input.variant.map NearbyVariant.text).getD ""
  let week := utcWeekBucketId env env.now
  let hour := utcHourBucketId env.toContentEnv env.now
  let r := (input.rotate.filter fun rotate => decide (0 < rotate)).map fun rotate =>
    utcHourBucketId env.toContentEnv rotate.floor
  userId ++ ":" ++ scope ++ ":" ++ input.type.getD "all" ++ ":" ++ v ++ ":" ++ week ++ ":" ++
    hour ++ ":" ++ env.toFixed2 input.lat ++ ":" ++ env.toFixed2 input.lng ++ ":" ++ r.getD ""

def rotationOptions (env : RankingEnv) (userId : Id) (input : NearbyRankingInput)
    (context : NearbyRankingContext) (work : List GooglePlaceSummary) : DynamicRankingOptions where
  bucketHours := some 1
  jitterRatio := some <|
    if homeMix input.variant then if context.hasPersonalization then 2 / 100 else 5 / 100
    else 12 / 100
  maxJitter := some <|
    if homeMix input.variant then if context.hasPersonalization then 3 else 6 else 14
  seed := buildPlacesRankingSeed env userId "nearby" input
  topWindow := some <| min work.length <| slots <|
    if homeMix input.variant then max (input.limit * 3) 21 else max (input.limit * 4) 20

/-- The candidates in the order of the ranking. -/
def orderedPlaces (env : RankingEnv) (userId : Id) (input : NearbyRankingInput)
    (context : NearbyRankingContext) (work : List GooglePlaceSummary) : List GooglePlaceSummary :=
  (rankCandidatesWithRotation env.toContentEnv (work.map fun place =>
    { baseScore := context.baseScore place, id := place.googlePlaceId, item := place })
    (rotationOptions env userId input context work)).map (·.item)

/-! ## Categories apart -/

def placeVarietyKey (env : RankingEnv) (place : GooglePlaceSummary) : String :=
  let t := env.toLowerCase ((place.primaryType.or place.types.head?).getD "place")
  if includesText t "restaurant" then "restaurant"
  else if includesText t "cafe" then "cafe"
  else t

/-- The first of another category than the one before, or else the first. -/
def variedIndex (env : RankingEnv) (prevKey : Option String) (pool : List GooglePlaceSummary) :
    Nat :=
  match prevKey with
  | none => 0
  | some key => (pool.findIdx? fun p => placeVarietyKey env p != key).getD 0

/-- The loop of `diversifyTopPlacesByCategory`, for so many entries. -/
def takeVaried (env : RankingEnv) : Nat → Option String → List GooglePlaceSummary →
    List GooglePlaceSummary
  | 0, _, _ => []
  | count + 1, prevKey, pool =>
    match pool[variedIndex env prevKey pool]? with
    | none => []
    | some place => place ::
        takeVaried env count (some (placeVarietyKey env place))
          (pool.eraseIdx (variedIndex env prevKey pool))

def diversifyTopPlacesByCategory (env : RankingEnv) (rankedOrdered : List GooglePlaceSummary)
    (limit : Rat) : List GooglePlaceSummary :=
  if (rankedOrdered.length : Rat) ≤ limit then rankedOrdered
  else takeVaried env limit.ceil.toNat none rankedOrdered

/-! ## Curated slots -/

/-- One turn of the loops of `buildPinnedCurationPlaces`. -/
def pinPlace (pinned : List GooglePlaceSummary) (place : GooglePlaceSummary) :
    List GooglePlaceSummary :=
  if MAX_FORCED_CITY_PICKS ≤ pinned.length then pinned else pushNew pinned place

/-- The first loop: the city picks that are pinned. -/
def pinnedPicks (cityPicks : List GooglePlaceSummary) : List GooglePlaceSummary :=
  cityPicks.foldl pinPlace []

def boostOf (boosts : OrderedMap String Int) (place : GooglePlaceSummary) : Int :=
  (boosts.get place.googlePlaceId).getD 0

/-- `boost(b) - boost(a) || a.googlePlaceId.localeCompare(b.googlePlaceId)`, not positive. -/
def moreBoosted (env : RankingEnv) (boosts : OrderedMap String Int) (a b : GooglePlaceSummary) :
    Prop :=
  boostOf boosts b < boostOf boosts a ∨
    (boostOf boosts a = boostOf boosts b ∧
      env.localeCompare a.googlePlaceId b.googlePlaceId ≤ 0)

instance (env : RankingEnv) (boosts : OrderedMap String Int) :
    DecidableRel (moreBoosted env boosts) := fun a b => by
  unfold moreBoosted
  infer_instance

def boostedCandidates (env : RankingEnv) (boosts : OrderedMap String Int)
    (candidates : List GooglePlaceSummary) : List GooglePlaceSummary :=
  (candidates.filter fun place => decide (boostOf boosts place > 0)).insertionSort
    (moreBoosted env boosts)

def buildPinnedCurationPlaces (env : RankingEnv) (cityPicks candidates : List GooglePlaceSummary)
    (boosts : OrderedMap String Int) : List GooglePlaceSummary :=
  (boostedCandidates env boosts candidates).foldl pinPlace (pinnedPicks cityPicks)

def applyCityPickSlots (ranked cityPicks : List GooglePlaceSummary) (limit : Rat) :
    List GooglePlaceSummary :=
  if cityPicks.length = 0 then sliceTo limit ranked
  else sliceTo limit (inFront (cityPicks.take MAX_FORCED_CITY_PICKS) ranked)

/-- The first loop of `applyCuratedSlotCap`: curated places without a boost up to a cap. -/
def fillCapped (limit : Rat) (isCurated isBoosted : String → Bool) :
    List GooglePlaceSummary → Nat → List GooglePlaceSummary → List GooglePlaceSummary
  | result, _, [] => result
  | result, curatedCount, place :: rest =>
    if isFull limit result then result
    else if hasId place.googlePlaceId result then
      fillCapped limit isCurated isBoosted result curatedCount rest
    else if isCurated place.googlePlaceId && !isBoosted place.googlePlaceId &&
        decide (MAX_CURATED_SLOTS_IN_TOP ≤ curatedCount) then
      fillCapped limit isCurated isBoosted result curatedCount rest
    else
      fillCapped limit isCurated isBoosted (result ++ [place])
        (if isCurated place.googlePlaceId then curatedCount + 1 else curatedCount) rest

/-- One turn of the second loop: what is not curated fills the slots that are left. -/
def fillUncurated (limit : Rat) (isCurated : String → Bool) (result : List GooglePlaceSummary)
    (place : GooglePlaceSummary) : List GooglePlaceSummary :=
  if isFull limit result then result
  else if isCurated place.googlePlaceId then result
  else pushNew result place

def isBoosted (boosts : OrderedMap String Int) (googlePlaceId : String) : Bool :=
  decide ((boosts.get googlePlaceId).getD 0 > 0)

def applyCuratedSlotCap (ordered : List GooglePlaceSummary) (curatedIds : OrderedSet String)
    (limit : Rat) (boosts : OrderedMap String Int) : List GooglePlaceSummary :=
  if curatedIds.keys.length = 0 then sliceTo limit ordered
  else
    ordered.foldl (fillUncurated limit curatedIds.has)
      (fillCapped limit curatedIds.has (isBoosted boosts) [] 0 ordered)

/-! ## The ranking -/

/-- The candidates that are ranked. -/
def qualified (variant : Option NearbyVariant) (context : NearbyRankingContext)
    (places : List GooglePlaceSummary) : List GooglePlaceSummary :=
  if homeMix variant then places.filter (hasQuality context) else places

def withCityPicks (env : RankingEnv) (input : NearbyRankingInput) (context : NearbyRankingContext)
    (work diversified : List GooglePlaceSummary) : List GooglePlaceSummary :=
  if pinsCurations input.variant then
    applyCityPickSlots diversified
      (buildPinnedCurationPlaces env context.cityPickPlaces work context.adminBoostByGoogleId)
      input.limit
  else diversified

/-- The places of the result; the scores asked for in debugging are left out. -/
def rankNearbyPlaceResults (env : RankingEnv) (userId : Id) (input : NearbyRankingInput)
    (places : List GooglePlaceSummary) (context : NearbyRankingContext) :
    List GooglePlaceSummary :=
  let work := qualified input.variant context places
  if work.length = 0 then []
  else
    let ordered := orderedPlaces env userId input context work
    if homeMix input.variant then
      applyCuratedSlotCap
        (withCityPicks env input context work
          (diversifyTopPlacesByCategory env ordered input.limit))
        context.curatedGoogleIds input.limit context.adminBoostByGoogleId
    else sliceTo input.limit ordered

/-! ## What a ranking lists -/

/-- Categories are set apart as keys are. -/
theorem takeVaried_eq_spread (env : RankingEnv) (count : Nat) (prevKey : Option String)
    (pool : List GooglePlaceSummary) :
    takeVaried env count prevKey pool = spread (placeVarietyKey env) count prevKey pool := by
  have hindex : ∀ (prevKey : Option String) (pool : List GooglePlaceSummary),
      variedIndex env prevKey pool = nextIndex (placeVarietyKey env) prevKey pool := by
    intro prevKey pool
    cases prevKey with
    | none => rfl
    | some key => rfl
  induction count generalizing prevKey pool with
  | zero => rfl
  | succ count ih =>
    rw [takeVaried, spread, hindex]
    cases pool[nextIndex (placeVarietyKey env) prevKey pool]? with
    | none => rfl
    | some place =>
      dsimp only
      rw [ih]

theorem diversify_subperm (env : RankingEnv) (rankedOrdered : List GooglePlaceSummary)
    (limit : Rat) :
    (diversifyTopPlacesByCategory env rankedOrdered limit).Subperm rankedOrdered := by
  unfold diversifyTopPlacesByCategory
  split
  · exact List.Subperm.refl _
  · rw [takeVaried_eq_spread]
    exact (spread_subperm _ none rankedOrdered).1

theorem mem_diversify {env : RankingEnv} {rankedOrdered : List GooglePlaceSummary} {limit : Rat}
    {place : GooglePlaceSummary}
    (h : place ∈ diversifyTopPlacesByCategory env rankedOrdered limit) :
    place ∈ rankedOrdered :=
  (diversify_subperm env rankedOrdered limit).subset h

theorem orderedPlaces_perm (env : RankingEnv) (userId : Id) (input : NearbyRankingInput)
    (context : NearbyRankingContext) (work : List GooglePlaceSummary) :
    (orderedPlaces env userId input context work).Perm work := by
  have hperm := rankCandidatesWithRotation_perm env.toContentEnv
    (rotationOptions env userId input context work) (work.map fun place =>
      { baseScore := context.baseScore place, id := place.googlePlaceId, item := place })
  rw [List.map_map] at hperm
  exact hperm.trans (List.Perm.of_eq (List.map_id work))

theorem mem_orderedPlaces {env : RankingEnv} {userId : Id} {input : NearbyRankingInput}
    {context : NearbyRankingContext} {work : List GooglePlaceSummary}
    {place : GooglePlaceSummary} (h : place ∈ orderedPlaces env userId input context work) :
    place ∈ work :=
  (orderedPlaces_perm env userId input context work).subset h

/-- Each place once, by its id. -/
def IdsDistinct (places : List GooglePlaceSummary) : Prop :=
  (places.map (·.googlePlaceId)).Nodup

theorem idsDistinct_nil : IdsDistinct [] := List.nodup_nil

theorem IdsDistinct.sublist {xs ys : List GooglePlaceSummary} (h : IdsDistinct ys)
    (hsub : xs.Sublist ys) : IdsDistinct xs :=
  List.Nodup.sublist (hsub.map _) h

theorem IdsDistinct.subperm {xs ys : List GooglePlaceSummary} (h : IdsDistinct ys)
    (hsub : xs.Subperm ys) : IdsDistinct xs := by
  obtain ⟨zs, hperm, hzs⟩ := hsub
  exact (hperm.map _).nodup_iff.mp (h.sublist hzs)

theorem IdsDistinct.append {front rest : List GooglePlaceSummary} (hfront : IdsDistinct front)
    (hrest : IdsDistinct rest)
    (hapart : ∀ place ∈ rest, hasId place.googlePlaceId front = false) :
    IdsDistinct (front ++ rest) := by
  unfold IdsDistinct at hfront hrest ⊢
  rw [List.map_append]
  refine List.nodup_append.mpr ⟨hfront, hrest, ?_⟩
  intro id hid other hother heq
  obtain ⟨q, hq, rfl⟩ := List.mem_map.mp hid
  obtain ⟨place, hplace, rfl⟩ := List.mem_map.mp hother
  have hhas := hasId_iff.mpr ⟨q, hq, heq⟩
  rw [hapart place hplace] at hhas
  cases hhas

theorem idsDistinct_concat {places : List GooglePlaceSummary} {place : GooglePlaceSummary}
    (h : IdsDistinct places) (hnew : hasId place.googlePlaceId places = false) :
    IdsDistinct (places ++ [place]) := by
  have hone : IdsDistinct [place] := List.nodup_singleton _
  apply h.append hone
  intro other hother
  rw [List.mem_singleton.mp hother]
  exact hnew

/-- No place in front of an entry has its id. -/
theorem IdsDistinct.hasId_front {front rest : List GooglePlaceSummary}
    {place : GooglePlaceSummary} (h : IdsDistinct (front ++ place :: rest)) :
    hasId place.googlePlaceId front = false := by
  by_contra hhas
  obtain ⟨q, hq, hid⟩ := hasId_iff.mp (Bool.of_not_eq_false hhas)
  unfold IdsDistinct at h
  rw [List.map_append, List.map_cons] at h
  exact (List.nodup_append.mp h).2.2 _ (List.mem_map_of_mem hq) _ List.mem_cons_self hid

theorem idsDistinct_inFront {front rest : List GooglePlaceSummary} (hfront : IdsDistinct front)
    (hrest : IdsDistinct rest) : IdsDistinct (inFront front rest) := by
  apply hfront.append (hrest.sublist List.filter_sublist)
  intro place hplace
  simpa using (List.mem_filter.mp hplace).2

/-- Listing places keeps what is listed and adds places that are new. -/
theorem foldl_pushNew (listed places : List GooglePlaceSummary) :
    ∃ added, places.foldl pushNew listed = listed ++ added ∧ added ⊆ places ∧
      (IdsDistinct listed → IdsDistinct (listed ++ added)) := by
  induction places generalizing listed with
  | nil => exact ⟨[], by simp, List.Subset.refl _, by simp⟩
  | cons place places ih =>
    rw [List.foldl_cons, pushNew]
    by_cases hhas : hasId place.googlePlaceId listed = true
    · obtain ⟨added, heq, hsub, hids⟩ := ih listed
      rw [if_pos hhas]
      exact ⟨added, heq, fun p hp => List.mem_cons_of_mem place (hsub hp), hids⟩
    · obtain ⟨added, heq, hsub, hids⟩ := ih (listed ++ [place])
      rw [List.append_assoc, List.singleton_append] at heq hids
      rw [if_neg hhas]
      refine ⟨place :: added, heq, List.cons_subset_cons place hsub, ?_⟩
      intro hdistinct
      exact hids (idsDistinct_concat hdistinct (Bool.eq_false_iff.mpr hhas))

/-- The loops stop at the cap, and would only have added behind it. -/
theorem foldl_pinPlace_eq_take {pinned : List GooglePlaceSummary}
    (hlength : pinned.length ≤ MAX_FORCED_CITY_PICKS) (places : List GooglePlaceSummary) :
    places.foldl pinPlace pinned = (places.foldl pushNew pinned).take MAX_FORCED_CITY_PICKS := by
  induction places generalizing pinned with
  | nil => exact (List.take_of_length_le hlength).symm
  | cons place places ih =>
    rw [List.foldl_cons, List.foldl_cons, pinPlace]
    by_cases hfull : MAX_FORCED_CITY_PICKS ≤ pinned.length
    · have hkeeps : ∀ listed : List GooglePlaceSummary,
          (listed.foldl pushNew pinned).take MAX_FORCED_CITY_PICKS = pinned := by
        intro listed
        obtain ⟨added, heq, -⟩ := foldl_pushNew pinned listed
        rw [heq, Nat.le_antisymm hfull hlength, List.take_left]
      rw [if_pos hfull, ih hlength, hkeeps places]
      exact (hkeeps (place :: places)).symm
    · rw [if_neg hfull]
      apply ih
      unfold pushNew
      split
      · exact hlength
      · rw [List.length_append, List.length_singleton]
        omega

/-- Pinning keeps what is pinned and adds places that are new, up to the cap. -/
theorem foldl_pinPlace {pinned : List GooglePlaceSummary} (places : List GooglePlaceSummary)
    (hdistinct : IdsDistinct pinned) (hlength : pinned.length ≤ MAX_FORCED_CITY_PICKS) :
    ∃ added, places.foldl pinPlace pinned = pinned ++ added ∧ added ⊆ places ∧
      IdsDistinct (pinned ++ added) ∧ (pinned ++ added).length ≤ MAX_FORCED_CITY_PICKS := by
  obtain ⟨added, heq, hsub, hids⟩ := foldl_pushNew pinned places
  have hcut : places.foldl pinPlace pinned =
      pinned ++ added.take (MAX_FORCED_CITY_PICKS - pinned.length) := by
    rw [foldl_pinPlace_eq_take hlength, heq, List.take_append, List.take_of_length_le hlength]
  refine ⟨_, hcut, fun p hp => hsub (List.take_subset _ _ hp), ?_, ?_⟩
  · exact (hids hdistinct).sublist ((List.take_sublist _ _).append_left pinned)
  · rw [List.length_append, List.length_take]
    omega

theorem pinnedPicks_spec (cityPicks : List GooglePlaceSummary) :
    pinnedPicks cityPicks ⊆ cityPicks ∧ IdsDistinct (pinnedPicks cityPicks) ∧
      (pinnedPicks cityPicks).length ≤ MAX_FORCED_CITY_PICKS := by
  obtain ⟨added, heq, hsub, hids, hcap⟩ := foldl_pinPlace cityPicks
    idsDistinct_nil (Nat.zero_le _)
  have hpicks : pinnedPicks cityPicks = added := heq
  rw [hpicks]
  exact ⟨hsub, hids, hcap⟩

/-- The pinned places are the pinned city picks and candidates behind them. -/
theorem buildPinnedCurationPlaces_spec (env : RankingEnv)
    (cityPicks candidates : List GooglePlaceSummary) (boosts : OrderedMap String Int) :
    ∃ added, buildPinnedCurationPlaces env cityPicks candidates boosts =
        pinnedPicks cityPicks ++ added ∧ added ⊆ candidates ∧
      IdsDistinct (pinnedPicks cityPicks ++ added) ∧
      (pinnedPicks cityPicks ++ added).length ≤ MAX_FORCED_CITY_PICKS := by
  obtain ⟨_, hids, hlength⟩ := pinnedPicks_spec cityPicks
  obtain ⟨added, heq, hsub, hpinned, hcap⟩ := foldl_pinPlace
    (boostedCandidates env boosts candidates) hids hlength
  refine ⟨added, heq, ?_, hpinned, hcap⟩
  intro place hplace
  have hmem := (List.mem_insertionSort _).mp (hsub hplace)
  exact (List.mem_filter.mp hmem).1

theorem applyCityPickSlots_eq {ranked cityPicks : List GooglePlaceSummary} {limit : Rat}
    (hlength : cityPicks.length ≤ MAX_FORCED_CITY_PICKS) :
    applyCityPickSlots ranked cityPicks limit = sliceTo limit (inFront cityPicks ranked) := by
  unfold applyCityPickSlots
  by_cases hnone : cityPicks.length = 0
  · have hnil : cityPicks = [] := List.length_eq_zero_iff.mp hnone
    rw [if_pos hnone, hnil, inFront]
    simp [hasId]
  · rw [if_neg hnone, List.take_of_length_le hlength]

/-- The first loop keeps what it has and adds places of the list. -/
theorem fillCapped_extends (limit : Rat) (isCurated isBoosted : String → Bool)
    (result : List GooglePlaceSummary) (curatedCount : Nat) (places : List GooglePlaceSummary) :
    ∃ tail, fillCapped limit isCurated isBoosted result curatedCount places = result ++ tail ∧
      tail ⊆ places := by
  induction places generalizing result curatedCount with
  | nil => exact ⟨[], by rw [fillCapped, List.append_nil], List.Subset.refl _⟩
  | cons place rest ih =>
    rw [fillCapped]
    by_cases hfull : isFull limit result = true
    · exact ⟨[], by rw [if_pos hfull, List.append_nil], List.nil_subset _⟩
    rw [if_neg hfull]
    have hskip : ∃ tail, fillCapped limit isCurated isBoosted result curatedCount rest =
        result ++ tail ∧ tail ⊆ place :: rest := by
      obtain ⟨tail, heq, hsub⟩ := ih result curatedCount
      exact ⟨tail, heq, fun p hp => List.mem_cons_of_mem place (hsub hp)⟩
    by_cases hhas : hasId place.googlePlaceId result = true
    · rw [if_pos hhas]
      exact hskip
    rw [if_neg hhas]
    by_cases hcap : (isCurated place.googlePlaceId && !isBoosted place.googlePlaceId &&
        decide (MAX_CURATED_SLOTS_IN_TOP ≤ curatedCount)) = true
    · rw [if_pos hcap]
      exact hskip
    · rw [if_neg hcap]
      obtain ⟨tail, heq, hsub⟩ := ih (result ++ [place])
        (if isCurated place.googlePlaceId then curatedCount + 1 else curatedCount)
      refine ⟨place :: tail, ?_, List.cons_subset_cons place hsub⟩
      rw [heq, List.append_assoc, List.singleton_append]

/-- While there is room, and fewer are curated than the cap, distinct places all pass. -/
theorem fillCapped_front {limit : Rat} (isCurated isBoosted : String → Bool)
    {result front : List GooglePlaceSummary} {curatedCount : Nat}
    (rest : List GooglePlaceSummary) (hdistinct : IdsDistinct (result ++ front))
    (hroom : (result ++ front).length ≤ slots limit)
    (hcount : curatedCount + front.length ≤ MAX_CURATED_SLOTS_IN_TOP) :
    ∃ curatedCount', fillCapped limit isCurated isBoosted result curatedCount (front ++ rest) =
      fillCapped limit isCurated isBoosted (result ++ front) curatedCount' rest := by
  induction front generalizing result curatedCount with
  | nil => exact ⟨curatedCount, by rw [List.nil_append, List.append_nil]⟩
  | cons place front ih =>
    have hlonger : (result ++ place :: front) = (result ++ [place]) ++ front := by simp
    have hfull : isFull limit result = false := by
      apply isFull_of_room
      rw [List.length_append, List.length_cons] at hroom
      omega
    have hnew : hasId place.googlePlaceId result = false := hdistinct.hasId_front
    have hbelow : ¬ MAX_CURATED_SLOTS_IN_TOP ≤ curatedCount := by
      rw [List.length_cons] at hcount
      omega
    have hcount' : (if isCurated place.googlePlaceId then curatedCount + 1 else curatedCount) +
        front.length ≤ MAX_CURATED_SLOTS_IN_TOP := by
      rw [List.length_cons] at hcount
      by_cases hcurated : isCurated place.googlePlaceId = true
      · rw [if_pos hcurated]
        omega
      · rw [if_neg hcurated]
        omega
    rw [hlonger] at hdistinct hroom
    obtain ⟨curatedCount', heq⟩ := ih hdistinct hroom hcount'
    refine ⟨curatedCount', ?_⟩
    rw [List.cons_append, fillCapped, hfull, hnew, hlonger, ← heq]
    simp [hbelow]

/-- The second loop keeps what it has and adds places that are not there yet. -/
theorem foldl_fillUncurated (limit : Rat) (isCurated : String → Bool)
    (result places : List GooglePlaceSummary) :
    ∃ tail, places.foldl (fillUncurated limit isCurated) result = result ++ tail ∧
      ∀ place ∈ tail, place ∈ places ∧ hasId place.googlePlaceId result = false := by
  induction places generalizing result with
  | nil => exact ⟨[], by simp, by simp⟩
  | cons place places ih =>
    by_cases hsame : fillUncurated limit isCurated result place = result
    · obtain ⟨tail, heq, htail⟩ := ih result
      refine ⟨tail, by rw [List.foldl_cons, hsame, heq], ?_⟩
      intro p hp
      exact ⟨List.mem_cons_of_mem place (htail p hp).1, (htail p hp).2⟩
    · have hhas : hasId place.googlePlaceId result = false := by
        by_contra hhas
        apply hsame
        unfold fillUncurated pushNew
        rw [if_pos (Bool.of_not_eq_false hhas)]
        simp
      have hpush : fillUncurated limit isCurated result place = result ++ [place] := by
        unfold fillUncurated pushNew at hsame ⊢
        by_cases hfull : isFull limit result = true
        · exact absurd (by rw [if_pos hfull]) hsame
        · by_cases hcurated : isCurated place.googlePlaceId = true
          · exact absurd (by rw [if_neg hfull, if_pos hcurated]) hsame
          · rw [if_neg hfull, if_neg hcurated, hhas]
            simp
      obtain ⟨tail, heq, htail⟩ := ih (result ++ [place])
      refine ⟨place :: tail, ?_, ?_⟩
      · rw [List.foldl_cons, hpush, heq, List.append_assoc, List.singleton_append]
      · intro p hp
        cases List.mem_cons.mp hp with
        | inl hfirst =>
          rw [hfirst]
          exact ⟨List.mem_cons_self, hhas⟩
        | inr hlater =>
          obtain ⟨hmem, hnew⟩ := htail p hlater
          refine ⟨List.mem_cons_of_mem place hmem, ?_⟩
          by_contra hold
          obtain ⟨q, hq, hid⟩ := hasId_iff.mp (Bool.of_not_eq_false hold)
          have hlonger := hasId_iff.mpr ⟨q, List.mem_append_left [place] hq, hid⟩
          rw [hnew] at hlonger
          cases hlonger

/-- Distinct places in front, fewer than the cap, keep their slots. -/
theorem applyCuratedSlotCap_front {front rest : List GooglePlaceSummary}
    {curatedIds : OrderedSet String} {limit : Rat} {boosts : OrderedMap String Int}
    (hdistinct : IdsDistinct front) (hlength : front.length ≤ MAX_CURATED_SLOTS_IN_TOP) :
    ∃ tail, applyCuratedSlotCap (sliceTo limit (front ++ rest)) curatedIds limit boosts =
      sliceTo limit front ++ tail ∧ tail ⊆ rest := by
  have hsplit : sliceTo limit (front ++ rest) =
      sliceTo limit front ++ rest.take (slots limit - front.length) := by
    unfold sliceTo
    rw [List.take_append]
  have hshorter : (sliceTo limit front).Sublist front := List.take_sublist _ _
  unfold applyCuratedSlotCap
  by_cases hnone : curatedIds.keys.length = 0
  · rw [if_pos hnone]
    refine ⟨rest.take (slots limit - front.length), ?_, List.take_subset _ _⟩
    rw [hsplit, ← hsplit]
    unfold sliceTo
    rw [List.take_take, Nat.min_self, List.take_append]
  · rw [if_neg hnone]
    have hids : IdsDistinct ([] ++ sliceTo limit front) := by
      rw [List.nil_append]
      exact hdistinct.sublist hshorter
    have hroom : ([] ++ sliceTo limit front).length ≤ slots limit := by
      rw [List.nil_append]
      exact List.length_take_le _ _
    have hcount : 0 + (sliceTo limit front).length ≤ MAX_CURATED_SLOTS_IN_TOP := by
      rw [Nat.zero_add]
      exact Nat.le_trans hshorter.length_le hlength
    obtain ⟨curatedCount, hfront⟩ := fillCapped_front curatedIds.has (isBoosted boosts)
      (rest.take (slots limit - front.length)) hids hroom hcount
    obtain ⟨capped, hcapped, hcappedSub⟩ := fillCapped_extends limit curatedIds.has
      (isBoosted boosts) ([] ++ sliceTo limit front) curatedCount
      (rest.take (slots limit - front.length))
    obtain ⟨filled, hfilled, hfilledNew⟩ := foldl_fillUncurated limit curatedIds.has
      (sliceTo limit front ++ capped)
      (sliceTo limit front ++ rest.take (slots limit - front.length))
    refine ⟨capped ++ filled, ?_, ?_⟩
    · rw [hsplit, hfront, hcapped, List.nil_append, hfilled, List.append_assoc]
    · intro place hplace
      cases List.mem_append.mp hplace with
      | inl hmem => exact List.take_subset _ _ (hcappedSub hmem)
      | inr hmem =>
        obtain ⟨hlisted, hnew⟩ := hfilledNew place hmem
        cases List.mem_append.mp hlisted with
        | inl hfrontMem =>
          have hhas := hasId_iff.mpr ⟨place, List.mem_append_left capped hfrontMem, rfl⟩
          rw [hnew] at hhas
          cases hhas
        | inr hrest => exact List.take_subset _ _ hrest

theorem mem_applyCuratedSlotCap {ordered : List GooglePlaceSummary}
    {curatedIds : OrderedSet String} {limit : Rat} {boosts : OrderedMap String Int}
    {place : GooglePlaceSummary}
    (h : place ∈ applyCuratedSlotCap ordered curatedIds limit boosts) : place ∈ ordered := by
  unfold applyCuratedSlotCap at h
  by_cases hnone : curatedIds.keys.length = 0
  · rw [if_pos hnone] at h
    exact List.take_subset _ _ h
  · rw [if_neg hnone] at h
    obtain ⟨capped, hcapped, hcappedSub⟩ := fillCapped_extends limit curatedIds.has
      (isBoosted boosts) [] 0 ordered
    obtain ⟨filled, hfilled, hfilledNew⟩ := foldl_fillUncurated limit curatedIds.has
      ([] ++ capped) ordered
    rw [hcapped, hfilled, List.nil_append] at h
    cases List.mem_append.mp h with
    | inl hmem => exact hcappedSub hmem
    | inr hmem => exact (hfilledNew place hmem).1

/-- The city picks a ranking shows, whatever the candidates are. -/
def shownPicks (input : NearbyRankingInput) (context : NearbyRankingContext)
    (places : List GooglePlaceSummary) : List GooglePlaceSummary :=
  if pinsCurations input.variant ∧ qualified input.variant context places ≠ [] then
    sliceTo input.limit (pinnedPicks context.cityPickPlaces)
  else []

theorem mem_qualified {variant : Option NearbyVariant} {context : NearbyRankingContext}
    {places : List GooglePlaceSummary} {place : GooglePlaceSummary}
    (h : place ∈ qualified variant context places) : place ∈ places := by
  unfold qualified at h
  by_cases hmix : homeMix variant = true
  · rw [if_pos hmix] at h
    exact (List.mem_filter.mp h).1
  · rw [if_neg hmix] at h
    exact h

/-- The pinned city picks keep the first slots, and candidates have the others. -/
theorem cappedSlots_spec {env : RankingEnv} {input : NearbyRankingInput}
    {context : NearbyRankingContext} {work diversified places : List GooglePlaceSummary}
    (hwork : work ⊆ places) (hdiversified : diversified ⊆ places) :
    ∃ tail, applyCuratedSlotCap (withCityPicks env input context work diversified)
        context.curatedGoogleIds input.limit context.adminBoostByGoogleId =
      (if pinsCurations input.variant then sliceTo input.limit (pinnedPicks context.cityPickPlaces)
        else []) ++ tail ∧ tail ⊆ places := by
  unfold withCityPicks
  by_cases hpins : pinsCurations input.variant = true
  · rw [if_pos hpins, if_pos hpins]
    obtain ⟨added, hpinned, hadded, _, hcap⟩ := buildPinnedCurationPlaces_spec env
      context.cityPickPlaces work context.adminBoostByGoogleId
    obtain ⟨_, hids, hlength⟩ := pinnedPicks_spec context.cityPickPlaces
    have hbelow : (pinnedPicks context.cityPickPlaces).length ≤ MAX_CURATED_SLOTS_IN_TOP :=
      Nat.le_trans hlength (by decide)
    rw [hpinned, applyCityPickSlots_eq hcap, inFront, List.append_assoc]
    obtain ⟨tail, heq, hsub⟩ := applyCuratedSlotCap_front hids hbelow
    refine ⟨tail, heq, ?_⟩
    intro place hplace
    cases List.mem_append.mp (hsub hplace) with
    | inl hmem => exact hwork (hadded hmem)
    | inr hmem => exact hdiversified (List.mem_filter.mp hmem).1
  · rw [if_neg hpins, if_neg hpins]
    exact ⟨_, rfl, fun place hplace => hdiversified (mem_applyCuratedSlotCap hplace)⟩

/-- Behind the city picks a ranking lists candidates only. -/
theorem rankNearbyPlaceResults_spec (env : RankingEnv) (userId : Id) (input : NearbyRankingInput)
    (places : List GooglePlaceSummary) (context : NearbyRankingContext) :
    ∃ tail, rankNearbyPlaceResults env userId input places context =
      shownPicks input context places ++ tail ∧ tail ⊆ places := by
  have hwork : qualified input.variant context places ⊆ places := fun place => mem_qualified
  have hordered : orderedPlaces env userId input context
      (qualified input.variant context places) ⊆ places :=
    fun place hmem => hwork (mem_orderedPlaces hmem)
  unfold rankNearbyPlaceResults shownPicks
  by_cases hnone : (qualified input.variant context places).length = 0
  · have hnil : qualified input.variant context places = [] := List.length_eq_zero_iff.mp hnone
    exact ⟨[], by simp [hnil], List.nil_subset _⟩
  have hsome : qualified input.variant context places ≠ [] := by
    intro hnil
    exact hnone (by rw [hnil, List.length_nil])
  rw [if_neg hnone]
  by_cases hmix : homeMix input.variant = true
  · rw [if_pos hmix]
    obtain ⟨tail, heq, hsub⟩ := cappedSlots_spec hwork
      (fun place hmem => hordered (mem_diversify hmem))
    refine ⟨tail, heq.trans ?_, hsub⟩
    by_cases hpins : pinsCurations input.variant = true
    · rw [if_pos hpins, if_pos ⟨hpins, hsome⟩]
    · rw [if_neg hpins, if_neg fun h => hpins h.1]
  · have hno : ¬ (pinsCurations input.variant = true ∧
        qualified input.variant context places ≠ []) := by
      intro h
      unfold pinsCurations at h
      rw [Bool.and_eq_true] at h
      exact hmix h.1.1
    rw [if_neg hmix, if_neg hno]
    exact ⟨_, rfl, fun place hplace => hordered (List.take_subset _ _ hplace)⟩

end Feca.Places
