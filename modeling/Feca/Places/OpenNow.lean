import Feca.Content.FeedPaging
import Feca.Places.Nearby

/-! # Open now, and on the radar

A list of open places is filtered once, and so is what the viewer has put off the
radar. Behind these filters the curated places of the city come in again, as the
database has them: with no word about their opening, and whatever the viewer
said. What a list promises therefore depends on the entries that come in so.
-/

namespace Feca.Places

open Collections Content Social

/-! ## What hydrating and presenting keep -/

/-- What the promises are about. -/
def shown (place : GooglePlaceSummary) : String × Option Bool :=
  (place.googlePlaceId, place.openNow)

def shownView (view : NearbyPlaceView) : String × Option Bool := (view.googlePlaceId, view.openNow)

theorem shown_withPhoto (photoById : OrderedMap String String) (place : GooglePlaceSummary) :
    shown (withPhoto photoById place) = shown place := by
  unfold withPhoto
  cases photoById.get place.googlePlaceId with
  | none => rfl
  | some photoUrl => rfl

theorem shown_hydrateMissingNearbyPhotos (config : NearbyConfig) (google : GooglePlaces)
    (priority : String → Bool) (places : List GooglePlaceSummary) :
    (hydrateMissingNearbyPhotos config google priority places).map shown = places.map shown := by
  unfold hydrateMissingNearbyPhotos
  by_cases hoff : getNearbyPhotoLimit config ≤ 0 ∨ google.shouldUseGooglePlaces = false
  · rw [if_pos hoff]
  · rw [if_neg hoff]
    dsimp only
    rw [List.map_map]
    apply List.map_congr_left
    intro place _
    exact shown_withPhoto _ place

theorem shown_presentFrom (config : NearbyConfig) (reads : NearbyReads)
    (priority : String → Bool) (index badgesShown : Nat) (places : List GooglePlaceSummary) :
    (presentFrom config reads priority index badgesShown places).map shownView =
      places.map shown := by
  induction places generalizing index badgesShown with
  | nil => rfl
  | cons place places ih =>
    rw [presentFrom, List.map_cons, List.map_cons, ih]
    rfl

theorem shown_presentNearbyPlaces (config : NearbyConfig) (google : GooglePlaces)
    (reads : NearbyReads) (priority : String → Bool) (places : List GooglePlaceSummary) :
    (presentNearbyPlaces config reads priority
      (hydrateMissingNearbyPhotos config google priority places)).map shownView =
        places.map shown := by
  rw [presentNearbyPlaces, shown_presentFrom, shown_hydrateMissingNearbyPhotos]

/-! ## The admin's entries -/

/-- The places that come in behind the filters: the curations set in front, then the
city picks of the ranking, as far as there are slots. -/
def adminEntries (google : GooglePlaces) (reads : NearbyReads) (input : GetNearbyPlacesQuery)
    (coords : Rat × Rat) : List GooglePlaceSummary :=
  if input.text.isSome ∨ workOf google reads input = [] then []
  else
    sliceTo input.limit (inFront
      (if shouldPrependAdmin reads input then forcedPlaces (cityRows reads) input.limit else [])
      (shownPicks (input.ranking coords) (rankingContext reads) (workOf google reads input)))

theorem sliceTo_sliceTo (limit : Rat) (xs : List GooglePlaceSummary) :
    sliceTo limit (sliceTo limit xs) = sliceTo limit xs := by
  unfold sliceTo
  rw [List.take_take, Nat.min_self]

theorem inFront_nil (places : List GooglePlaceSummary) : inFront [] places = places := by
  simp [inFront, hasId]

theorem inFront_append (front places more : List GooglePlaceSummary) :
    inFront front (places ++ more) =
      inFront front places ++ more.filter fun place => !hasId place.googlePlaceId front := by
  unfold inFront
  rw [List.filter_append, List.append_assoc]

/-- A list holds the admin's entries, and besides them only what has passed the filters. -/
theorem rankedPlaces_spec (env : RankingEnv) (google : GooglePlaces) (reads : NearbyReads)
    (userId : Id) (input : GetNearbyPlacesQuery) (coords : Rat × Rat)
    (hwork : workOf google reads input ≠ []) :
    ∃ tail, rankedPlaces env google reads userId input coords =
      adminEntries google reads input coords ++ tail ∧ tail ⊆ workOf google reads input := by
  unfold rankedPlaces adminEntries
  dsimp only
  by_cases htext : input.text.isSome = true
  · have hno : ¬ shouldPrependAdmin reads input = true := by
      have hnone : input.text.isNone = false := by simpa using htext
      simp [shouldPrependAdmin, hnone]
    have hout : input.text.isSome = true ∨ workOf google reads input = [] := .inl htext
    rw [if_pos htext, if_neg hno, if_pos hout]
    exact ⟨_, rfl, List.take_subset _ _⟩
  · have hneither : ¬ (input.text.isSome = true ∨ workOf google reads input = []) := by
      intro h
      cases h with
      | inl hsome => exact htext hsome
      | inr hnil => exact hwork hnil
    obtain ⟨tail, hranked, hsub⟩ := rankNearbyPlaceResults_spec env userId (input.ranking coords)
      (workOf google reads input) (rankingContext reads)
    rw [if_neg htext, if_neg hneither, hranked]
    by_cases hprepend : shouldPrependAdmin reads input = true
    · rw [if_pos hprepend, if_pos hprepend, prependAdminCuratedPlaces, inFront_append]
      refine ⟨_, List.take_append, ?_⟩
      intro place hplace
      exact hsub (List.mem_filter.mp (List.take_subset _ _ hplace)).1
    · rw [if_neg hprepend, if_neg hprepend, inFront_nil]
      have hshown : sliceTo input.limit (shownPicks (input.ranking coords) (rankingContext reads)
          (workOf google reads input)) =
          shownPicks (input.ranking coords) (rankingContext reads)
            (workOf google reads input) := by
        unfold shownPicks
        by_cases hpins : pinsCurations (input.ranking coords).variant = true ∧
            qualified (input.ranking coords).variant (rankingContext reads)
              (workOf google reads input) ≠ []
        · rw [if_pos hpins]
          exact sliceTo_sliceTo _ _
        · rw [if_neg hpins, sliceTo, List.take_nil]
      exact ⟨tail, by rw [hshown], hsub⟩

/-- A stored place does not say whether it is open. -/
theorem adminEntries_openNow {google : GooglePlaces} {reads : NearbyReads}
    {input : GetNearbyPlacesQuery} {coords : Rat × Rat} {place : GooglePlaceSummary}
    (h : place ∈ adminEntries google reads input coords) : place.openNow = none := by
  unfold adminEntries at h
  by_cases hout : input.text.isSome = true ∨ workOf google reads input = []
  · rw [if_pos hout] at h
    cases h
  rw [if_neg hout] at h
  cases List.mem_append.mp (List.take_subset _ _ h) with
  | inl hforced =>
    by_cases hprepend : shouldPrependAdmin reads input = true
    · rw [if_pos hprepend] at hforced
      obtain ⟨row, _, _, hcandidate⟩ := mem_forcedPlaces hforced
      exact CurationRow.candidate_openNow hcandidate
    · rw [if_neg hprepend] at hforced
      cases hforced
  | inr hpick =>
    have hshown := (List.mem_filter.mp hpick).1
    unfold shownPicks at hshown
    by_cases hpins : pinsCurations (input.ranking coords).variant = true ∧
        qualified (input.ranking coords).variant (rankingContext reads)
          (workOf google reads input) ≠ []
    · rw [if_pos hpins] at hshown
      have hcity := (pinnedPicks_spec _).1 (List.take_subset _ _ hshown)
      have hstored := (List.mem_filter.mp hcity).1
      by_cases hnone : reads.cityId.bind orNull = none
      · rw [if_pos hnone] at hstored
        cases hstored
      · rw [if_neg hnone] at hstored
        obtain ⟨row, _, hrow⟩ := List.mem_map.mp hstored
        rw [← hrow]
        rfl
    · rw [if_neg hpins] at hshown
      cases hshown

/-! ## The promises -/

/-- Open, where that was asked for, and not off the viewer's radar. -/
def Promised (reads : NearbyReads) (variant : Option NearbyVariant) (shown : String × Option Bool) :
    Prop :=
  (variant = some .homeOpenNow → shown.2 = some true) ∧ isExcluded reads shown.1 = false

theorem promised_of_work {google : GooglePlaces} {reads : NearbyReads}
    {input : GetNearbyPlacesQuery} {place : GooglePlaceSummary}
    (h : place ∈ workOf google reads input) : Promised reads input.variant (shown place) := by
  obtain ⟨hmem, hradar⟩ := List.mem_filter.mp h
  constructor
  · intro hvariant
    unfold variantCandidates at hmem
    by_cases hnone : (visibleCandidatesOf reads input).length = 0
    · rw [if_pos hnone] at hmem
      cases hmem
    · rw [if_neg hnone, if_pos hvariant] at hmem
      exact beq_iff_eq.mp (List.mem_filter.mp hmem).2
  · have hstate : isExcluded reads place.googlePlaceId = false := by simpa using hradar
    exact hstate

/-- Every place of a nearby list keeps its promises. -/
def KeepsPromises (reads : NearbyReads) (variant : Option NearbyVariant)
    (views : List NearbyPlaceView) : Prop :=
  ∀ view ∈ views, Promised reads variant (shownView view)

/-- No admin entry is in a list of open places, and none in any list is off the radar. -/
def EntriesAllowed (google : GooglePlaces) (reads : NearbyReads) (input : GetNearbyPlacesQuery) :
    Prop :=
  ∀ coords, resolveViewerCoordinates reads input = some coords →
    ∀ place ∈ adminEntries google reads input coords,
      input.variant ≠ some .homeOpenNow ∧ isExcluded reads place.googlePlaceId = false

theorem keepsPromises_iff_of_shown {reads : NearbyReads} {variant : Option NearbyVariant}
    {views : List NearbyPlaceView} {places : List GooglePlaceSummary}
    (h : views.map shownView = places.map shown) :
    KeepsPromises reads variant views ↔
      ∀ place ∈ places, Promised reads variant (shown place) := by
  have hviews : KeepsPromises reads variant views ↔
      ∀ s ∈ views.map shownView, Promised reads variant s := by
    simp [KeepsPromises]
  rw [hviews, h]
  simp

/-- A nearby list keeps its promises exactly when the admin's entries allow it. -/
theorem keepsPromises_nearby_iff (env : RankingEnv) (config : NearbyConfig)
    (google : GooglePlaces) (reads : NearbyReads) (userId : Id) (input : GetNearbyPlacesQuery) :
    KeepsPromises reads input.variant (nearby env config google reads userId input) ↔
      EntriesAllowed google reads input := by
  unfold nearby EntriesAllowed
  cases hcoords : resolveViewerCoordinates reads input with
  | none => simp [KeepsPromises]
  | some coords =>
    unfold finalizeNearby
    by_cases hnone : (workOf google reads input).length = 0
    · have hnil : workOf google reads input = [] := List.length_eq_zero_iff.mp hnone
      simp [KeepsPromises, adminEntries, hnil]
    have hwork : workOf google reads input ≠ [] := by
      intro hnil
      exact hnone (by rw [hnil, List.length_nil])
    obtain ⟨tail, hranked, htail⟩ := rankedPlaces_spec env google reads userId input coords hwork
    dsimp only
    rw [if_neg hnone, keepsPromises_iff_of_shown (shown_presentNearbyPlaces config google reads _ _),
      hranked]
    constructor
    · intro h other hother place hplace
      cases hother
      obtain ⟨hopen, hradar⟩ := h place (List.mem_append_left tail hplace)
      refine ⟨?_, hradar⟩
      intro hvariant
      have hunknown := adminEntries_openNow hplace
      have hshown := hopen hvariant
      unfold shown at hshown
      rw [hunknown] at hshown
      cases hshown
    · intro h place hplace
      cases List.mem_append.mp hplace with
      | inl hentry =>
        obtain ⟨hvariant, hradar⟩ := h coords rfl place hentry
        exact ⟨fun heq => absurd heq hvariant, hradar⟩
      | inr hmem => exact promised_of_work (htail hmem)

/-- A list of open places, and one without the places off the radar, for every request of
the home and of the explore page. -/
theorem open_now_lists_open_places_iff (env : RankingEnv) (config : NearbyConfig)
    (google : GooglePlaces) (reads : NearbyReads) (userId : Id) :
    (∀ input, KeepsPromises reads input.variant (nearby env config google reads userId input) ↔
      EntriesAllowed google reads input) ∧
    ∀ input : ExploreContextQuery,
      (∀ view ∈ exploreContext env config google reads userId input,
        (input.intent = .openNow → view.openNow = some true) ∧
          isExcluded reads view.googlePlaceId = false) ↔
        EntriesAllowed google reads input.nearby := by
  constructor
  · exact keepsPromises_nearby_iff env config google reads userId
  · intro input
    rw [← keepsPromises_nearby_iff env config google reads userId input.nearby]
    have hvariant : input.nearby.variant = some .homeOpenNow ↔ input.intent = .openNow := by
      simp [ExploreContextQuery.nearby]
    unfold exploreContext KeepsPromises Promised
    simp [shownView, hvariant]

/-! ## A closed bar -/

/-- A bar the admin has boosted in the city. -/
def boostedBar : CurationRow where
  id := "b1"
  placeId := "p7"
  boostScore := 50
  updatedAt := 0
  place :=
    { id := "p7"
      name := "Bar"
      address := "Calle 7"
      city := "Tandil"
      sourcePlaceId := some "bar" }

/-- The cafe around is open, and nothing is known of the bar. -/
def cafeAndBar : NearbyReads where
  userCoordinates := some (0, 0)
  cityId := some "tandil"
  googlePool := []
  hiddenGoogleIds := .empty
  candidatePool _ :=
    [{ googlePlaceId := "cafe", name := "Cafe", address := "Calle 1", lat := 0, lng := 0,
       openNow := some true }]
  curationSignals := curationSignals [boostedBar]
  curationRows := [boostedBar]
  cityPickRows := []
  networkSignals := .empty
  viewerRadar := .empty
  fecaQualityByGoogleId := .empty
  recommendedBadges := .empty
  baseScore _ := 0
  hasPersonalization := false

def withoutGoogle : GooglePlaces where
  shouldUseGooglePlaces := false
  getCachedPlaceDetailView _ := .error .other

def aRankingEnv : RankingEnv := { aContentEnv with startOfYear := fun _ => 0 }

/-- The bar is set in front of the open cafe. -/
theorem boosted_bar_is_listed_as_open :
    ¬ KeepsPromises cafeAndBar (some .homeOpenNow)
      (nearby aRankingEnv ⟨false, 0, false⟩ withoutGoogle cafeAndBar "ana"
        { variant := some .homeOpenNow }) := by
  intro hkeeps
  have hallowed := (keepsPromises_nearby_iff aRankingEnv ⟨false, 0, false⟩ withoutGoogle cafeAndBar
    "ana" { variant := some .homeOpenNow }).mp hkeeps
  have hentry : hasId "bar" (adminEntries withoutGoogle cafeAndBar
      { variant := some .homeOpenNow } (0, 0)) = true := by decide +kernel
  obtain ⟨place, hplace, _⟩ := hasId_iff.mp hentry
  exact (hallowed (0, 0) rfl place hplace).1 rfl

end Feca.Places
