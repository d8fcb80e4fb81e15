import Feca.Places.NearbyOnce
import Feca.Places.Quality
import Feca.Places.ScoredRanking
import Feca.Places.Stored

/-! # The lists of a store

`PlacesNearbyService.nearby` with its reads: the signals of the viewer, the hidden
places, the curations of the city, what the network says, the viewer's own radar and
what the visitors make of the candidates. Google and the cities stay outside.
-/

namespace Feca.Places

open Collections Concurrency.Prog Content Social

structure HomeEnv extends NearbyEnv, PoolEnv where
  /-- `new Date()`, by the clock of the server. -/
  wallClock : WallClock

/-- What does not come from the database. -/
structure HomeSources where
  googlePool : List GooglePlaceSummary
  /-- `resolveCurationCityId`. -/
  curationCityId : Option Id
  googlePlacesRadiusMeters : Rat

structure HomeQuery extends GetNearbyPlacesQuery where
  intent : Option ExploreIntent := none

/-! ## The reads -/

def getUserCoordinates (s : ContentDb) (userId : Id) : Option (Rat × Rat) :=
  (s.findUserRow userId).bind fun user => user.lat.bind fun lat => user.lng.map fun lng => (lat, lng)

/-- `resolveViewerCoordinates`. -/
def viewerCoordinates (s : ContentDb) (userId : Id) (input : GetNearbyPlacesQuery) :
    Option (Rat × Rat) :=
  match input.lat, input.lng with
  | some lat, some lng => some (lat, lng)
  | _, _ => getUserCoordinates s userId

def addHidden (ids : OrderedSet String) (row : PlaceRow) : OrderedSet String :=
  match (row.sourcePlaceId.map trim).bind orNull with
  | none => ids
  | some googlePlaceId => OrderedSet.add ids googlePlaceId

def getHiddenGooglePlaceIds (s : ContentDb) : OrderedSet String :=
  ((placeRows s).filter (·.hiddenFromApp)).foldl addHidden .empty

/-- Every row is a city pick, so the boosts and the dates decide. -/
def listCityPickPlacesForCity (s : ContentDb) (now : Date) (cityId : Id) (limit : Nat := 10) :
    List PlaceRow :=
  (((findCurations s { activeCurationWhere (some cityId) now with
    isCityPick := some true }).insertionSort strongerOrNewerCuration).take limit).map (·.place)

/-- The rows of the city, if there is one. -/
def ofCity {α : Type} (cityId : Option Id) (rows : Id → List α) : List α :=
  match cityId.bind orNull with
  | none => []
  | some cityId => rows cityId

def poolReads (env : HomeEnv) (s : ContentDb) (sources : HomeSources) (coords : Rat × Rat)
    (cityId : Option Id) (likedCategories : List String) : PoolReads where
  fecaPositive := (listNearbyPlacesWithPositiveVisits env.toNearbyEnv s coords.1 coords.2
    sources.googlePlacesRadiusMeters 25).map (·.item)
  similarPlaces ids := (listNearbyPlacesMatchingCategories env.toNearbyEnv s coords.1 coords.2
    likedCategories ids sources.googlePlacesRadiusMeters 20).map (·.item)
  cityCurations := ofCity cityId (listActiveForCity s env.now)

/-- What is known before the candidates are. -/
def readsBefore (env : HomeEnv) (s : ContentDb) (sources : HomeSources) (userId : Id)
    (coords : Rat × Rat) (type : Option String) (signals : RecommendationSignals) : NearbyReads :=
  let cityId := sources.curationCityId.or signals.cityId
  let curationRows := ofCity cityId (listActiveForCity s env.now)
  { userCoordinates := getUserCoordinates s userId
    cityId
    googlePool := sources.googlePool
    hiddenGoogleIds := getHiddenGooglePlaceIds s
    candidatePool := buildNearbyCandidatePool env.toPoolEnv userId coords type cityId
      (poolReads env s sources coords cityId signals.likedVisitedPlaceCategoryIds)
    curationSignals := curationSignals curationRows
    curationRows
    cityPickRows := ofCity cityId fun cityId => listCityPickPlacesForCity s env.now cityId 8
    networkSignals := .empty
    viewerRadar := .empty
    fecaQualityByGoogleId := .empty
    recommendedBadges := .empty
    baseScore _ := 0
    hasPersonalization := false }

/-- The ids of the candidates, of which the other reads are asked. -/
def candidateIds (reads : NearbyReads) (input : GetNearbyPlacesQuery) : List String :=
  (visibleCandidatesOf reads input).map (·.googlePlaceId)

def scoringContext (signals : RecommendationSignals) (input : HomeQuery)
    (inferredIntent : ExploreIntent) (reads : NearbyReads) : NearbyScoringContext where
  tastePreferenceIds := signals.tastePreferenceIds
  importedPlaceCategoryIds := signals.importedPlaceCategoryIds
  likedVisitedPlaceCategoryIds := signals.likedVisitedPlaceCategoryIds
  dislikedVisitedPlaceCategoryIds := signals.dislikedVisitedPlaceCategoryIds
  outingPreferences := signals.outingPreferences
  inferredIntent
  explicitExploreIntent :=
    if input.variant = some .homeOpenNow then some .openNow else input.intent
  likedNearbyGooglePlaceIds := signals.likedNearbyGooglePlaceIds.foldl OrderedSet.add .empty
  fecaQualityByGoogleId := reads.fecaQualityByGoogleId
  adminBoostByGoogleId := (citySignals reads).boosts
  curatedGoogleIds := (citySignals reads).curatedGoogleIds
  cityPickPlaces := cityPickPlaces reads
  networkBoostByGoogleId :=
    setEach (fun entry : String × PlaceSignals => some entry.1) (·.2.boost) .empty
      reads.networkSignals.entries

/-- What a runtime error does to a request. -/
def thrown {α : Type} : Except Thrown α → Except Failure α
  | .ok a => .ok a
  | .error e => .error (.database e)

/-- The scores fail only where something is ranked. -/
def readOuting (google : GooglePlaces) (reads : NearbyReads) (input : HomeQuery)
    (context : NearbyScoringContext) : Except Failure Nat :=
  if input.text.isSome ∨ qualified input.variant (rankingContext reads)
      (workOf google reads input.toGetNearbyPlacesQuery) = [] then .ok 0
  else thrown (scoreOutingAgainstIntent context.scoringIntent context.outingPreferences)

def withBadges (env : HomeEnv) (s : ContentDb) (google : GooglePlaces) (reads : NearbyReads)
    (userId : Id) (input : GetNearbyPlacesQuery) (coords : Rat × Rat) : NearbyReads :=
  { reads with
    recommendedBadges := getRecommendedBadgesByGooglePlaceIds s env.now reads.cityId
      ((rankedPlaces env.toRankingEnv google reads userId input coords).map (·.googlePlaceId)) }

/-- `resolved.intent ?? inferNearbyExploreIntent(signals.outingPreferences)`. -/
def resolvedIntent (env : HomeEnv) (input : HomeQuery) (signals : RecommendationSignals) :
    Except Failure ExploreIntent :=
  match input.intent with
  | some intent => .ok intent
  | none => thrown (inferNearbyExploreIntent signals.outingPreferences env.wallClock)

/-- What the database says of the candidates. -/
def readCandidates (env : HomeEnv) (s : ContentDb) (userId : Id) (input : GetNearbyPlacesQuery)
    (known : NearbyReads) : Except Failure NearbyReads := do
  let googleIds := candidateIds known input
  let networkSignals ←
    ((getNearbyNetworkSignalsForGooglePlaces env.toContentEnv userId googleIds).run s).result
  let viewerRadar ← ((getViewerRadarVisitOverlay env.toContentEnv userId googleIds).run s).result
  pure
    { known with
      networkSignals
      viewerRadar
      fecaQualityByGoogleId := getFecaQualityByGooglePlaceIds s googleIds }

/-- The reads, with the score they make. -/
def scoreCandidates (env : HomeEnv) (google : GooglePlaces) (signals : RecommendationSignals)
    (input : HomeQuery) (intent : ExploreIntent) (coords : Rat × Rat) (reads : NearbyReads) :
    Except Failure NearbyReads := do
  let context := scoringContext signals input intent reads
  let outing ← readOuting google reads input context
  pure
    { reads with
      baseScore := context.baseScore env.toContentEnv (input.ranking coords) outing
      hasPersonalization := context.hasPersonalization }

/-- `PlacesNearbyService.nearby`, over the database. -/
def homeList (env : HomeEnv) (config : NearbyConfig) (google : GooglePlaces) (sources : HomeSources)
    (s : SignalsDb) (userId : Id) (input : HomeQuery) : Except Failure (List NearbyPlaceView) :=
  match viewerCoordinates s.toContentDb userId input.toGetNearbyPlacesQuery with
  | none => .ok []
  | some coords => do
    let signals ← ((getUserRecommendationSignals env.toContentEnv userId).run s).result
    let intent ← resolvedIntent env input signals
    let reads ← readCandidates env s.toContentDb userId input.toGetNearbyPlacesQuery
      (readsBefore env s.toContentDb sources userId coords input.type signals)
    let scored ← scoreCandidates env google signals input intent coords reads
    pure (finalizeNearby env.toRankingEnv config google
      (withBadges env s.toContentDb google scored userId input.toGetNearbyPlacesQuery coords)
        userId input.toGetNearbyPlacesQuery coords)

/-! ## What the candidates are asked about -/

/-- The reads of a request are those of the store. -/
structure ReadFrom (s : ContentDb) (now : Date) (cityId : Option Id) (userId : Id)
    (input : GetNearbyPlacesQuery) (reads : NearbyReads) : Prop where
  city : reads.cityId = cityId
  rows : reads.curationRows = ofCity cityId (listActiveForCity s now)
  signals : reads.curationSignals = curationSignals reads.curationRows
  picks : reads.cityPickRows = ofCity cityId fun cityId => listCityPickPlacesForCity s now cityId 8
  hidden : reads.hiddenGoogleIds = getHiddenGooglePlaceIds s
  network : ∀ id, 0 < networkBoost reads id → id ∈ candidateIds reads input
  radar : ∀ id, reads.viewerRadar.get id = some .excludeFromRadar ↔
    id ∈ askedIds (candidateIds reads input) ∧
      ∃ v ∈ countedVisit s userId (askedIds (candidateIds reads input)) id, OffRadar now v
  quality : reads.fecaQualityByGoogleId =
    getFecaQualityByGooglePlaceIds s (candidateIds reads input)

/-- The signals of the network are about what was asked only. -/
theorem get_signalsOf {now : Date} {uniqueIds : List String} {placeRows : List PlaceRow}
    {shown : List VisitWithRelations} {saves : List SaveWithUser} {id : String}
    (hrows : ∀ row ∈ placeRows, ∃ googleId ∈ uniqueIds, row.sourcePlaceId = some googleId)
    (hid : id ∉ uniqueIds) : (signalsOf now uniqueIds placeRows shown saves).get id = none := by
  have heq : signalsOf now uniqueIds placeRows shown saves =
      setEach (fun row : PlaceRow => row.sourcePlaceId.bind orNull)
        (fun row => placeSignals now row.id shown saves)
        (setEach some (fun _ => {}) .empty uniqueIds) placeRows := by
    unfold signalsOf setEach
    congr 1
    funext signals row
    dsimp only
    cases row.sourcePlaceId.bind orNull <;> rfl
  rw [heq, get_setEach_of_absent, get_setEach_of_absent]
  · rfl
  · intro other hother hsame
    cases hsame
    exact hid hother
  · intro row hrow hkey
    obtain ⟨googleId, hasked, hsource⟩ := hrows row hrow
    rw [eq_some_of_bind_orNull hkey] at hsource
    cases hsource
    exact hid hasked

theorem networkSignals_asked {env : ContentEnv} {userId : Id} {s : ContentDb}
    {googlePlaceIds : List String} {signals : OrderedMap String PlaceSignals}
    (h : ((getNearbyNetworkSignalsForGooglePlaces env userId googlePlaceIds).run s).result =
      .ok signals) {id : String} (hid : id ∉ askedIds googlePlaceIds) : signals.get id = none := by
  have hkeeps : (getNearbyNetworkSignalsForGooglePlaces env userId googlePlaceIds).Keeps
      (fun _ => True) fun signals => signals.get id = none := by
    have hnothing : (signalsOf env.now (askedIds googlePlaceIds) [] [] []).get id = none :=
      get_signalsOf (by simp) hid
    unfold getNearbyNetworkSignalsForGooglePlaces
    dsimp only
    split
    · exact keeps_pure hnothing
    · apply keeps_bind (keeps_any (ensureUserSettings env 0 userId))
      intro _ _
      apply keeps_bind (keeps_any (query _))
      intro followingIds _
      split
      · exact keeps_pure hnothing
      · apply keeps_bind (keeps_query fun t _ => ⟨t, rfl⟩ : (query _ : ContentProg _).Keeps
          (fun _ => True) fun rows => ∃ t : ContentDb, rows = t.googlePlacesIn _)
        rintro _ ⟨t, rfl⟩
        apply keeps_bind (keeps_any (query _))
        intro visits _
        apply keeps_bind (keeps_any (query _))
        intro saves _
        refine keeps_pure (get_signalsOf (fun row hrow => ?_) hid)
        exact (mem_googlePlacesIn.mp hrow).2.2
  exact hkeeps.result trivial h

/-- What a request of a store goes by. -/
def cityOf (sources : HomeSources) (s : ContentDb) (userId : Id) : Option Id :=
  sources.curationCityId.or ((s.findUserRow userId).bind (·.cityId))

theorem ok_of_bind {ε α β : Type} {x : Except ε α} {k : α → Except ε β} {b : β}
    (h : x >>= k = .ok b) : ∃ a, x = .ok a ∧ k a = .ok b := by
  cases x with
  | error e => cases h
  | ok a => exact ⟨a, rfl, h⟩

theorem cityId_of_signals {env : ContentEnv} {s : SignalsDb} {userId : Id}
    {signals : RecommendationSignals}
    (h : ((getUserRecommendationSignals env userId).run s).result = .ok signals) :
    signals.cityId = (s.findUserRow userId).bind (·.cityId) := by
  cases h
  cases hrow : s.findUserRow userId with
  | none => simp [hrow]
  | some row => simp [hrow]

section answered

variable {env : HomeEnv} {google : GooglePlaces} {sources : HomeSources} {s : SignalsDb}
  {userId : Id} {input : HomeQuery} {coords : Rat × Rat} {signals : RecommendationSignals}

theorem readCandidates_readFrom {s : ContentDb} {cityId : Option Id} {reads : NearbyReads}
    (hcity : sources.curationCityId.or signals.cityId = cityId)
    (h : readCandidates env s userId input.toGetNearbyPlacesQuery
      (readsBefore env s sources userId coords input.type signals) = .ok reads) :
    ReadFrom s env.now cityId userId input.toGetNearbyPlacesQuery reads := by
  obtain ⟨networkSignals, hnetwork, h⟩ := ok_of_bind h
  obtain ⟨viewerRadar, hradar, h⟩ := ok_of_bind h
  cases h
  subst hcity
  refine ⟨rfl, rfl, rfl, rfl, rfl, ?_, ?_, rfl⟩
  · intro id hboost
    by_contra hnot
    have hask : id ∉ askedIds (candidateIds
        (readsBefore env s sources userId coords input.type signals)
          input.toGetNearbyPlacesQuery) :=
      fun hasked => hnot (List.mem_filter.mp (mem_distinctIds.mp hasked)).1
    have hnone := networkSignals_asked hnetwork hask
    unfold networkBoost at hboost
    dsimp only at hboost
    rw [hnone] at hboost
    simp at hboost
  · intro id
    obtain ⟨overlay, hoverlay, hget⟩ := @get_overlay env.toContentEnv s userId
      (candidateIds (readsBefore env s sources userId coords input.type signals)
        input.toGetNearbyPlacesQuery) id
    rw [hradar] at hoverlay
    cases hoverlay
    rw [hget, ← radarOfVisit_off]
    split
    · rename_i hasked
      exact ⟨fun h => ⟨hasked, Option.some.inj h⟩, fun h => congrArg some h.2⟩
    · rename_i hnot
      exact iff_of_false (fun h => nomatch h) fun h => hnot h.1

/-- A request that is answered reads the store, and lists what it reads. -/
theorem homeList_readFrom {config : NearbyConfig} {views : List NearbyPlaceView}
    (h : homeList env config google sources s userId input = .ok views) :
    views = [] ∨ ∃ coords reads,
      ReadFrom s.toContentDb env.now (cityOf sources s.toContentDb userId) userId
        input.toGetNearbyPlacesQuery reads ∧
      views = finalizeNearby env.toRankingEnv config google reads userId
        input.toGetNearbyPlacesQuery coords := by
  unfold homeList at h
  cases hcoords : viewerCoordinates s.toContentDb userId input.toGetNearbyPlacesQuery with
  | none =>
    rw [hcoords] at h
    cases h
    exact .inl rfl
  | some coords =>
    rw [hcoords] at h
    obtain ⟨signals, hsignals, h⟩ := ok_of_bind h
    obtain ⟨intent, -, h⟩ := ok_of_bind h
    obtain ⟨reads, hreads, h⟩ := ok_of_bind h
    obtain ⟨scored, hscored, h⟩ := ok_of_bind h
    cases h
    have hcity : sources.curationCityId.or signals.cityId =
        cityOf sources s.toContentDb userId := by
      rw [cityOf, cityId_of_signals hsignals]
    have hfrom := readCandidates_readFrom hcity hreads
    obtain ⟨outing, -, hscored⟩ := ok_of_bind hscored
    cases hscored
    -- neither the scores nor the badges are among the reads that matter
    refine .inr ⟨coords, withBadges env s.toContentDb google _ userId
      input.toGetNearbyPlacesQuery coords, ?_, rfl⟩
    exact ⟨hfrom.city, hfrom.rows, hfrom.signals, hfrom.picks, hfrom.hidden, hfrom.network,
      hfrom.radar, hfrom.quality⟩

end answered

/-! ## What a list heeds -/

/-- An active curation of the city names the place. -/
def CuratedAs (s : ContentDb) (now : Date) (cityId : Option Id) (googlePlaceId : String) : Prop :=
  ∃ row ∈ ofCity cityId (listActiveForCity s now), row.googlePlaceId = some googlePlaceId

/-- A curation of the city with a boost, a badge or a pick: such places are set in front of
the ranking, and picks need not be candidates. -/
def SetInFront (s : ContentDb) (now : Date) (cityId : Option Id) (googlePlaceId : String) : Prop :=
  ∃ row ∈ ofCity cityId (listActiveForCity s now), shouldInject row = true ∧
    (row.googlePlaceId = some googlePlaceId ∨
      (mapStoredPlaceToNearby row.place).googlePlaceId = googlePlaceId)

section listed

variable {s : ContentDb} {now : Date} {cityId : Option Id} {userId : Id}
  {input : GetNearbyPlacesQuery} {reads : NearbyReads} {google : GooglePlaces}
  {place : GooglePlaceSummary}

theorem ReadFrom.cityRows_sub (h : ReadFrom s now cityId userId input reads) :
    cityRows reads ⊆ ofCity cityId (listActiveForCity s now) := by
  unfold cityRows
  split
  · exact List.nil_subset _
  · rw [h.rows]
    exact List.Subset.refl _

/-- A city pick is an active curation. -/
theorem mem_listCityPicks {cityId : Id} {limit : Nat} {row : PlaceRow}
    (h : row ∈ listCityPickPlacesForCity s now cityId limit) :
    ∃ curation ∈ listActiveForCity s now cityId,
      shouldInject curation = true ∧ curation.place = row := by
  obtain ⟨curation, htake, rfl⟩ := List.mem_map.mp h
  have hfound := (List.mem_insertionSort _).mp (List.mem_of_mem_take htake)
  obtain ⟨hstored, hholds⟩ := List.mem_filter.mp hfound
  have hpick : curation.isCityPick = true := by
    unfold CurationWhere.holds at hholds
    simp only [Bool.and_eq_true, Option.all_some, beq_iff_eq] at hholds
    exact hholds.1.1.2
  refine ⟨curation, (List.mem_insertionSort _).mpr (List.mem_filter.mpr ⟨hstored, ?_⟩),
    by simp [shouldInject, hpick], rfl⟩
  have hnone : (activeCurationWhere (some cityId) now).isCityPick = none := by
    unfold activeCurationWhere
    dsimp only
    split <;> rfl
  unfold CurationWhere.holds at hholds ⊢
  simp only [hnone, Option.all_none, Bool.and_true, Bool.and_eq_true] at hholds ⊢
  tauto

theorem ReadFrom.inFront_of_pick (h : ReadFrom s now cityId userId input reads)
    (hplace : place ∈ cityPickPlaces reads) : SetInFront s now cityId place.googlePlaceId := by
  have hmem := (List.mem_filter.mp hplace).1
  split at hmem
  · cases hmem
  · obtain ⟨row, hrow, rfl⟩ := List.mem_map.mp hmem
    rw [h.picks] at hrow
    unfold ofCity at hrow
    cases hcity : cityId.bind orNull with
    | none =>
      rw [hcity] at hrow
      cases hrow
    | some city =>
      rw [hcity] at hrow
      obtain ⟨curation, hcuration, hpick, rfl⟩ := mem_listCityPicks hrow
      refine ⟨curation, ?_, hpick, .inr rfl⟩
      rw [ofCity, hcity]
      exact hcuration

theorem ReadFrom.inFront_of_forced (h : ReadFrom s now cityId userId input reads) {limit : Rat}
    (hplace : place ∈ forcedPlaces (cityRows reads) limit) :
    SetInFront s now cityId place.googlePlaceId := by
  obtain ⟨row, hrow, hinjected, hcandidate⟩ := mem_forcedPlaces hplace
  obtain ⟨googlePlaceId, hid, rfl⟩ := Option.map_eq_some_iff.mp hcandidate
  exact ⟨row, h.cityRows_sub hrow, hinjected, .inl hid⟩

/-- What the admin has curated or boosted is curated in the city. -/
theorem ReadFrom.curated_of_protected (h : ReadFrom s now cityId userId input reads) {id : String}
    (hprotected : isProtected (rankingContext reads) id = true) : CuratedAs s now cityId id := by
  have hspec := signalsOf_curationSignals reads.curationRows
  rw [← h.signals] at hspec
  have hrow : ∃ row ∈ cityRows reads, row.googlePlaceId = some id := by
    unfold isProtected rankingContext citySignals at hprotected
    dsimp only at hprotected
    unfold cityRows
    split at hprotected
    · cases hprotected
    · rename_i hcity
      rw [if_neg hcity]
      cases Bool.or_eq_true _ _ ▸ hprotected with
      | inl hcurated => exact (hspec.curated id).mp hcurated
      | inr hboosted =>
        unfold OrderedMap.has at hboosted
        rw [hspec.boosts id] at hboosted
        have hsome : boostsOf reads.curationRows id ≠ [] := by
          intro hnil
          rw [hnil] at hboosted
          cases hboosted
        obtain ⟨boost, hboost⟩ := List.exists_mem_of_ne_nil _ hsome
        obtain ⟨row, hrow, hid⟩ := mem_boostsOf.mp hboost
        exact ⟨row, hrow, hid.1⟩
  obtain ⟨row, hmem, hid⟩ := hrow
  exact ⟨row, h.cityRows_sub hmem, hid⟩

/-- A list holds the places set in front, unless it is a search, and besides them candidates
that passed the filters. -/
theorem mem_rankedPlaces {env : RankingEnv} {coords : Rat × Rat}
    (h : place ∈ rankedPlaces env google reads userId input coords) :
    (input.text = none ∧
      (place ∈ forcedPlaces (cityRows reads) input.limit ∨ place ∈ cityPickPlaces reads)) ∨
      (place ∈ workOf google reads input ∧ (input.text = none →
        place ∈ qualified input.variant (rankingContext reads) (workOf google reads input))) := by
  by_cases htext : input.text = none
  · have hranking : place ∈ rankNearbyPlaceResults env userId (input.ranking coords)
        (workOf google reads input) (rankingContext reads) →
        (input.text = none ∧ (place ∈ forcedPlaces (cityRows reads) input.limit ∨
          place ∈ cityPickPlaces reads)) ∨ (place ∈ workOf google reads input ∧
          (input.text = none → place ∈ qualified input.variant (rankingContext reads)
            (workOf google reads input))) := by
      intro hmem
      obtain ⟨tail, heq, hsub⟩ := rankNearbyPlaceResults_qualified env userId
        (input.ranking coords) (workOf google reads input) (rankingContext reads)
      rw [heq] at hmem
      cases List.mem_append.mp hmem with
      | inl hpick => exact .inl ⟨htext, .inr (mem_shownPicks hpick)⟩
      | inr htail => exact .inr ⟨mem_qualified (hsub htail), fun _ => hsub htail⟩
    rw [rankedPlaces_eq htext] at h
    split at h
    · cases List.mem_append.mp (List.take_subset _ _ h) with
      | inl hforced => exact .inl ⟨htext, .inl hforced⟩
      | inr hbehind => exact hranking (List.mem_filter.mp hbehind).1
    · exact hranking h
  · have hsome : input.text.isSome = true := Option.ne_none_iff_isSome.mp htext
    have hnoprepend : ¬ shouldPrependAdmin reads input = true := by
      simp [shouldPrependAdmin, htext]
    unfold rankedPlaces at h
    dsimp only at h
    rw [if_neg hnoprepend, if_pos hsome] at h
    exact .inr ⟨List.take_subset _ _ h, fun hnone => absurd hnone htext⟩

/-- What is ranked is among the candidates the database was asked about. -/
theorem ReadFrom.id_of_work (h : ReadFrom s now cityId userId input reads)
    (hplace : place ∈ workOf google reads input) :
    place.googlePlaceId ∈ candidateIds reads input := by
  have hvisible : place ∈ visibleCandidatesOf reads input →
      place.googlePlaceId ∈ candidateIds reads input := fun hmem => List.mem_map_of_mem hmem
  have hmem := (List.mem_filter.mp hplace).1
  unfold variantCandidates at hmem
  split at hmem
  · cases hmem
  · split at hmem
    · have hopened := (List.mem_filter.mp hmem).1
      unfold hydrateMissingOpenNow at hopened
      obtain ⟨candidate, hcandidate, rfl⟩ := List.mem_map.mp hopened
      rw [withOpening_id]
      exact List.mem_map_of_mem hcandidate
    · split at hmem
      · exact h.network _ (by simpa using (List.mem_filter.mp hmem).2)
      · exact hvisible hmem

theorem not_hidden_of_candidate (hid : place.googlePlaceId ∈ candidateIds reads input) :
    reads.hiddenGoogleIds.has place.googlePlaceId = false := by
  obtain ⟨candidate, hcandidate, hsame⟩ := List.mem_map.mp hid
  rw [← hsame]
  unfold visibleCandidatesOf at hcandidate
  split at hcandidate
  · simpa using (List.mem_filter.mp hcandidate).2
  · simpa using (List.mem_filter.mp hcandidate).2

/-- The newest visits of a user. -/
def newestOwnVisits (s : ContentDb) (userId : Id) : List Visit :=
  ((s.visits.rows.filter (·.userId == userId)).insertionSort newerOwnVisit).take 800

/-- What is among the newest visits of all is among the newest to some places. -/
theorem mem_readVisits {uniqueIds : List String} {visit : Visit}
    (hnewest : visit ∈ newestOwnVisits s userId)
    (hplace : visit.placeId ∈ (s.googlePlacesIn uniqueIds).map (·.id)) :
    visit ∈ readVisits s userId uniqueIds := by
  have hown : ownVisits s userId ((s.googlePlacesIn uniqueIds).map (·.id)) =
      ((s.visits.rows.filter (·.userId == userId)).insertionSort newerOwnVisit).filter
        fun v => ((s.googlePlacesIn uniqueIds).map (·.id)).contains v.placeId := by
    unfold ownVisits
    rw [filter_insertionSort newerOwnVisit_total newerOwnVisit_trans, List.filter_filter]
    congr 1
    exact List.filter_congr fun v _ => Bool.and_comm _ _
  unfold readVisits
  rw [hown]
  unfold newestOwnVisits at hnewest
  generalize (s.visits.rows.filter (·.userId == userId)).insertionSort newerOwnVisit = own
    at hnewest ⊢
  have hfront : ((own.take 800).filter fun v =>
      ((s.googlePlacesIn uniqueIds).map (·.id)).contains v.placeId).length ≤ 800 :=
    (List.length_filter_le _ _).trans (List.length_take_le _ _)
  rw [← List.take_append_drop 800 own, List.filter_append, List.take_append,
    List.take_of_length_le hfront]
  exact List.mem_append_left _ (List.mem_filter.mpr ⟨hnewest, by simpa using hplace⟩)

/-- What a place on a list is to heed: what the viewer last wrote about it, of which the newest
visits are read, and what its visitors say, unless it is curated. -/
structure HeedsReviews (s : ContentDb) (now : Date) (cityId : Option Id) (userId : Id)
    (input : GetNearbyPlacesQuery) (googlePlaceId : String) : Prop where
  shown : (getHiddenGooglePlaceIds s).has googlePlaceId = false
  radar : ∀ place visit, placeOfGoogleId s googlePlaceId = some place →
    latestVisit s userId place.id = some visit → visit ∈ newestOwnVisits s userId →
      ¬ OffRadar now visit
  visitors : input.text = none → homeMix input.variant = true →
    CuratedAs s now cityId googlePlaceId ∨
      ∀ place, placeOfSourceId s googlePlaceId = some place → ¬ Disliked (visitsTo s place.id)

theorem countedVisit_of_newest {id : String}
    (hasked : id ∈ askedIds (candidateIds reads input)) {row : PlaceRow} {visit : Visit}
    (hplace : placeOfGoogleId s id = some row) (hlatest : latestVisit s userId row.id = some visit)
    (hnewest : visit ∈ newestOwnVisits s userId) :
    countedVisit s userId (askedIds (candidateIds reads input)) id = some visit := by
  have hrow := List.find?_some hplace
  simp only [Bool.and_eq_true, beq_iff_eq] at hrow
  have hin : row ∈ s.googlePlacesIn (askedIds (candidateIds reads input)) :=
    mem_googlePlacesIn.mpr ⟨List.mem_map.mp (List.mem_of_find?_eq_some hplace), hrow.1, id, hasked,
      hrow.2⟩
  have hvisit : visit.placeId = row.id := by
    have hmem := (List.mem_insertionSort _).mp (List.mem_of_head? hlatest)
    have hboth := (List.mem_filter.mp hmem).2
    simp only [Bool.and_eq_true, beq_iff_eq] at hboth
    exact hboth.2
  have hid : visit.placeId ∈
      (s.googlePlacesIn (askedIds (candidateIds reads input))).map (·.id) :=
    List.mem_map.mpr ⟨row, hin, hvisit.symm⟩
  have hread := mem_readVisits hnewest hid
  rw [Places.countedVisit, hplace, Option.bind_some, hlatest]
  simp [Option.filter, hread]

/-- What is ranked heeds the reviews. -/
theorem ReadFrom.heeds_of_work (h : ReadFrom s now cityId userId input reads)
    (hplace : place ∈ workOf google reads input)
    (hquality : input.text = none →
      place ∈ qualified input.variant (rankingContext reads) (workOf google reads input))
    (hblank : trim place.googlePlaceId ≠ "") :
    HeedsReviews s now cityId userId input place.googlePlaceId := by
  have hid := h.id_of_work hplace
  have hasked : place.googlePlaceId ∈ askedIds (candidateIds reads input) :=
    mem_distinctIds.mpr (List.mem_filter.mpr ⟨hid, by simpa using hblank⟩)
  refine ⟨?_, ?_, ?_⟩
  · rw [← h.hidden]
    exact not_hidden_of_candidate hid
  · intro row visit hrow hlatest hnewest hoff
    have hexcluded := (h.radar place.googlePlaceId).mpr
      ⟨hasked, visit, countedVisit_of_newest hasked hrow hlatest hnewest, hoff⟩
    have hallowed := (List.mem_filter.mp hplace).2
    simp [isExcluded, hexcluded] at hallowed
  · intro htext hmix
    by_cases hprotected : isProtected (rankingContext reads) place.googlePlaceId = true
    · exact .inl (h.curated_of_protected hprotected)
    right
    intro row hrow hdisliked
    have hqualified := hquality htext
    unfold qualified at hqualified
    rw [if_pos hmix] at hqualified
    have hgood := (List.mem_filter.mp hqualified).2
    unfold hasQuality at hgood
    rw [Bool.eq_false_iff.mpr hprotected, Bool.false_or, Bool.and_eq_true] at hgood
    have hnot : isExcludedByVisitors s (candidateIds reads input) place.googlePlaceId = false := by
      have hread := hgood.1
      unfold rankingContext at hread
      dsimp only at hread
      rw [h.quality, Bool.not_eq_true'] at hread
      exact hread
    have hyes := (isExcludedByVisitors_iff hrow).mpr
      ⟨⟨hid, ne_empty_of_asked hasked⟩, hdisliked⟩
    rw [hnot] at hyes
    cases hyes

end listed

/-- For every store, viewer and request that is answered, whatever Google and the cache have in
the pool: each place listed is set in front by a curation of the city, or it is not hidden, the
viewer's last review of it does not keep it off, and on a home list its visitors do not either,
unless it is curated. -/
theorem home_list_heeds_reviews (env : HomeEnv) (config : NearbyConfig) (google : GooglePlaces)
    (sources : HomeSources) (s : SignalsDb) (userId : Id) (input : HomeQuery)
    (views : List NearbyPlaceView)
    (h : homeList env config google sources s userId input = .ok views) :
    ∀ view ∈ views, trim view.googlePlaceId ≠ "" →
      (input.text = none ∧ SetInFront s.toContentDb env.now
        (cityOf sources s.toContentDb userId) view.googlePlaceId) ∨
      HeedsReviews s.toContentDb env.now (cityOf sources s.toContentDb userId) userId
        input.toGetNearbyPlacesQuery view.googlePlaceId := by
  intro view hview hblank
  rcases homeList_readFrom h with rfl | ⟨coords, reads, hreads, rfl⟩
  · cases hview
  unfold finalizeNearby at hview
  split at hview
  · cases hview
  dsimp only at hview
  have hshown : shownView view ∈ (rankedPlaces env.toRankingEnv google reads userId
      input.toGetNearbyPlacesQuery coords).map shown := by
    rw [← shown_presentNearbyPlaces config google reads]
    exact List.mem_map_of_mem hview
  obtain ⟨place, hplace, hsame⟩ := List.mem_map.mp hshown
  have hid : place.googlePlaceId = view.googlePlaceId := congrArg Prod.fst hsame
  rw [← hid] at hblank ⊢
  rcases mem_rankedPlaces hplace with ⟨htext, hforced | hpick⟩ | ⟨hwork, hquality⟩
  · exact .inl ⟨htext, hreads.inFront_of_forced hforced⟩
  · exact .inl ⟨htext, hreads.inFront_of_pick hpick⟩
  · exact .inr (hreads.heeds_of_work hwork hquality hblank)

/-! ## A list for ana

Five places are near. The pub is hidden, ana would not go back to the cafe, and beto liked
neither the grill nor the museum, which is curated. A pick of the city is nowhere near. -/

def aHomeEnv : HomeEnv :=
  { aFlatEnv, aPoolEnv with
    wallClock := { hour := 12, day := 4 } }

def tandil : HomeSources where
  googlePool := ["bar", "cafe", "pub", "grill", "museum"].map placeWithId
  curationCityId := some "tandil"
  googlePlacesRadiusMeters := 5000

def placesOfTandil : List Place :=
  ["bar", "cafe", "pub", "grill", "museum", "pick"].map fun id => { aBar with id }

def visitsOfTandil : List Visit :=
  { betosVisit 0 with placeId := "cafe", userId := "ana", note := "Frio", wouldReturn := some .no } ::
    [(1, "grill"), (2, "grill"), (3, "museum"), (4, "museum")].map fun (i, placeId) =>
      { betosVisit i with placeId, rating := 1 }

def curationsOfTandil : List PlaceCuration :=
  [{ id := "k1", placeId := "museum", cityId := some "tandil", updatedAt := 0 },
    { id := "k2", placeId := "pick", cityId := some "tandil", isCityPick := true, updatedAt := 0 }]

def anasStore : SignalsDb where
  toSocialDb := SocialDb.ofUsers anaAndBeto (anaFollowsBeto 0).settings (anaFollowsBeto 0).follows
    .empty ⟨placesOfTandil, by decide⟩
  tastePreferenceIds _ := []
  isEditor _ := false
  placeColumns id := { sourcePlaceId := some id, hiddenFromApp := id == "pub" }
  visits := ⟨visitsOfTandil, by decide⟩
  saves := .empty
  diaries := .empty
  diaryPlaces := .empty
  curations := ⟨curationsOfTandil, by decide⟩
  user_id := by decide
  place_source := by
    intro p hp q hq _ hsource hsame
    rw [← hsource] at hsame
    exact List.inj_on_of_nodup_map (f := Place.id) (l := placesOfTandil) (by decide) hp hq
      (Option.some.inj hsame).symm
  visit_place := by decide
  visit_user := by decide
  save_user := by simp
  diary_creator := by simp
  entry_diary := no_entry_diary
  curation_place := by decide
  outingPreferences _ := .null

def anasQuery : HomeQuery := { lat := some 0, lng := some 0, variant := some .homeNearby }

/-- The pick comes first, the museum is protected, and the bar is left. -/
theorem anas_list_heeds_reviews : ∃ views,
    homeList aHomeEnv ⟨false, 0, false⟩ withoutGoogle tandil anasStore "ana" anasQuery = .ok views ∧
    views.map (·.googlePlaceId) = ["pick", "bar", "museum"] ∧
    ∀ view ∈ views, trim view.googlePlaceId ≠ "" →
      (anasQuery.text = none ∧ SetInFront anasStore.toContentDb 0
        (cityOf tandil anasStore.toContentDb "ana") view.googlePlaceId) ∨
      HeedsReviews anasStore.toContentDb 0 (cityOf tandil anasStore.toContentDb "ana") "ana"
        anasQuery.toGetNearbyPlacesQuery view.googlePlaceId := by
  have hids : ((homeList aHomeEnv ⟨false, 0, false⟩ withoutGoogle tandil anasStore "ana"
      anasQuery).toOption.map fun views => views.map (·.googlePlaceId)) =
        some ["pick", "bar", "museum"] := by
    decide +kernel
  cases hlist : homeList aHomeEnv ⟨false, 0, false⟩ withoutGoogle tandil anasStore "ana"
      anasQuery with
  | error e =>
    rw [hlist] at hids
    cases hids
  | ok views =>
    rw [hlist] at hids
    exact ⟨views, rfl, Option.some.inj hids, home_list_heeds_reviews aHomeEnv ⟨false, 0, false⟩
      withoutGoogle tandil anasStore "ana" anasQuery views hlist⟩

end Feca.Places
