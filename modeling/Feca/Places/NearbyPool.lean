import Feca.Places.CuratedSlots

/-! # The pool of a nearby list

`PlacesNearbyPoolService.buildNearbyCandidatePool` gathers the places of Google,
places with good visits, places like those the viewer liked and the curated ones
in a map by their Google ids. Whatever comes in twice, the map holds it once, and
every stage behind it keeps the ids apart. The number of places is another
matter: a limit with a fraction is rounded down wherever a list is sliced, and up
by the loops that fill one.
-/

namespace Feca.Places

open Collections Content Social

structure PoolEnv extends RankingEnv where
  /-- `value.toFixed(3)`. -/
  toFixed3 : Rat → String

/-- What the pool reads from the database. -/
structure PoolReads where
  /-- `listNearbyPlacesWithPositiveVisits`. -/
  fecaPositive : List PlaceRow
  /-- `listNearbyPlacesMatchingCategories`, without the places of these ids. -/
  similarPlaces : List String → List PlaceRow
  /-- `listActiveForCity`. -/
  cityCurations : List CurationRow

/-! ## Shuffling -/

def shuffleSeed (env : PoolEnv) (userId : Id) (coords : Rat × Rat) (type : Option String)
    (tag : String) : String :=
  userId ++ ":" ++ utcHourBucketId env.toContentEnv env.now ++ ":" ++ env.toFixed3 coords.1 ++
    ":" ++ env.toFixed3 coords.2 ++ ":" ++ type.getD "mix" ++ ":" ++ tag

/-- One turn of the loop: the entry at `i` changes places with one up to it. -/
def shuffleStep (env : PoolEnv) (seed : String) (i : Nat) (arr : Array GooglePlaceSummary) :
    Array GooglePlaceSummary :=
  match arr[i]? with
  | none => arr
  | some place => arr.swapIfInBounds i
      (env.sha256Prefix (seed ++ ":" ++ place.googlePlaceId ++ ":" ++ toString i) % (i + 1))

/-- The turns from `i` down to the second entry. -/
def shuffleFrom (env : PoolEnv) (seed : String) :
    Nat → Array GooglePlaceSummary → Array GooglePlaceSummary
  | 0, arr => arr
  | i + 1, arr => shuffleFrom env seed i (shuffleStep env seed (i + 1) arr)

def stableShuffleGooglePlaces (env : PoolEnv) (items : List GooglePlaceSummary) (seed : String) :
    List GooglePlaceSummary :=
  if items.length ≤ 1 then items
  else (shuffleFrom env seed (items.length - 1) items.toArray).toList

theorem shuffleStep_perm (env : PoolEnv) (seed : String) (i : Nat)
    (arr : Array GooglePlaceSummary) : (shuffleStep env seed i arr).Perm arr := by
  unfold shuffleStep Array.swapIfInBounds
  split
  · exact Array.Perm.rfl
  · split
    · split
      · exact Array.swap_perm _ _
      · exact Array.Perm.rfl
    · exact Array.Perm.rfl

theorem shuffleFrom_perm (env : PoolEnv) (seed : String) (i : Nat)
    (arr : Array GooglePlaceSummary) : (shuffleFrom env seed i arr).Perm arr := by
  induction i generalizing arr with
  | zero => exact Array.Perm.rfl
  | succ i ih => exact (ih _).trans (shuffleStep_perm env seed (i + 1) arr)

theorem stableShuffle_perm (env : PoolEnv) (items : List GooglePlaceSummary) (seed : String) :
    (stableShuffleGooglePlaces env items seed).Perm items := by
  unfold stableShuffleGooglePlaces
  split
  · exact List.Perm.refl _
  · exact Array.perm_iff_toList_perm.mp (shuffleFrom_perm env seed _ items.toArray)

/-! ## The pool -/

def upsertStored (byId : OrderedMap String GooglePlaceSummary) (place : PlaceRow) :
    OrderedMap String GooglePlaceSummary :=
  upsertNearbyCandidate byId (mapStoredPlaceToNearby place)

/-- The place of a row is known to be in another city. -/
def isElsewhere (cityId : Option Id) (row : CurationRow) : Bool :=
  (cityId.bind orNull).any fun here => (row.place.cityId.bind orNull).any (· != here)

/-- One turn of the loop over the curations: what is not injected is merged only. -/
def injectCuration (cityId : Option Id) (byId : OrderedMap String GooglePlaceSummary)
    (row : CurationRow) : OrderedMap String GooglePlaceSummary :=
  if isElsewhere cityId row then byId
  else
    match row.candidate with
    | none => byId
    | some place =>
      if shouldInject row || byId.has place.googlePlaceId then upsertNearbyCandidate byId place
      else byId

def poolById (cityId : Option Id) (pool : PoolReads) (googlePool : List GooglePlaceSummary) :
    OrderedMap String GooglePlaceSummary :=
  let byId := byNormalizedId googlePool
  let withVisits := pool.fecaPositive.foldl upsertStored byId
  let withSimilar := (pool.similarPlaces byId.keys).foldl upsertStored withVisits
  let cityCurations := if cityId.bind orNull = none then [] else pool.cityCurations
  cityCurations.foldl (injectCuration cityId) withSimilar

def buildNearbyCandidatePool (env : PoolEnv) (userId : Id) (coords : Rat × Rat)
    (type : Option String) (cityId : Option Id) (pool : PoolReads)
    (googlePool : List GooglePlaceSummary) : List GooglePlaceSummary :=
  stableShuffleGooglePlaces env (poolById cityId pool googlePool).values
    (shuffleSeed env userId coords type "pool")

/-- What the service reads, with the pool that `PlacesNearbyPoolService` builds. -/
def NearbyReads.withPool (reads : NearbyReads) (env : PoolEnv) (userId : Id) (coords : Rat × Rat)
    (type : Option String) (pool : PoolReads) : NearbyReads :=
  { reads with candidatePool := buildNearbyCandidatePool env userId coords type reads.cityId pool }

/-- `PlacesNearbyService.nearby`. -/
def nearbyFromPool (env : PoolEnv) (config : NearbyConfig) (google : GooglePlaces)
    (reads : NearbyReads) (pool : PoolReads) (userId : Id) (input : GetNearbyPlacesQuery) :
    List NearbyPlaceView :=
  match resolveViewerCoordinates reads input with
  | none => []
  | some coords => finalizeNearby env.toRankingEnv config google
      (reads.withPool env userId coords input.type pool) userId input coords

/-! ## Places under their ids -/

/-- Every place is held under its Google id. -/
abbrev ById (byId : OrderedMap String GooglePlaceSummary) : Prop := byId.KeyedBy (·.googlePlaceId)

theorem byId_byNormalizedId (candidates : List GooglePlaceSummary) :
    ById (byNormalizedId candidates) := by
  unfold byNormalizedId
  refine List.foldlRecOn (motive := ById) candidates _ (OrderedMap.keyedBy_empty _) ?_
  intro byId hbyId place _
  by_cases hempty : place.googlePlaceId = ""
  · rw [if_pos hempty]
    exact hbyId
  · rw [if_neg hempty]
    exact OrderedMap.KeyedBy.set hbyId (withNormalizedId_id place)

theorem byId_upsertNearbyCandidate {byId : OrderedMap String GooglePlaceSummary} (h : ById byId)
    (place : GooglePlaceSummary) : ById (upsertNearbyCandidate byId place) := by
  unfold upsertNearbyCandidate
  split
  · exact h
  · split
    · exact h.set rfl
    · exact h.set rfl

theorem byId_mergeCuration {byId : OrderedMap String GooglePlaceSummary} (h : ById byId)
    (row : CurationRow) : ById (mergeCuration byId row) := by
  unfold mergeCuration
  split
  · exact h
  · split
    · exact byId_upsertNearbyCandidate h _
    · exact h

theorem byId_injectCuration {byId : OrderedMap String GooglePlaceSummary} (h : ById byId)
    (cityId : Option Id) (row : CurationRow) : ById (injectCuration cityId byId row) := by
  unfold injectCuration
  split
  · exact h
  · split
    · exact h
    · split
      · exact byId_upsertNearbyCandidate h _
      · exact h

theorem byId_poolById (cityId : Option Id) (pool : PoolReads)
    (googlePool : List GooglePlaceSummary) : ById (poolById cityId pool googlePool) := by
  have hstored : ∀ (rows : List PlaceRow) (byId : OrderedMap String GooglePlaceSummary),
      ById byId → ById (rows.foldl upsertStored byId) := by
    intro rows byId hbyId
    exact List.foldlRecOn (motive := ById) rows _ hbyId
      fun _ h place _ => byId_upsertNearbyCandidate h _
  unfold poolById
  refine List.foldlRecOn (motive := ById) _ _ ?_ fun _ h row _ => byId_injectCuration h cityId row
  exact hstored _ _ (hstored _ _ (byId_byNormalizedId googlePool))

/-- Whatever comes in, the pool has each place once. -/
theorem idsDistinct_buildNearbyCandidatePool (env : PoolEnv) (userId : Id) (coords : Rat × Rat)
    (type : Option String) (cityId : Option Id) (pool : PoolReads)
    (googlePool : List GooglePlaceSummary) :
    IdsDistinct (buildNearbyCandidatePool env userId coords type cityId pool googlePool) :=
  IdsDistinct.subperm (byId_poolById cityId pool googlePool).nodup
    (stableShuffle_perm env _ _).subperm

theorem idsDistinct_mergeCityCurations (candidates : List GooglePlaceSummary)
    (curationRows : List CurationRow) :
    IdsDistinct (mergeCityCurationsIntoNearbyCandidates candidates curationRows) := by
  refine OrderedMap.KeyedBy.nodup ?_
  exact List.foldlRecOn (motive := ById) curationRows _ (byId_byNormalizedId candidates)
    fun _ h row _ => byId_mergeCuration h row

end Feca.Places
