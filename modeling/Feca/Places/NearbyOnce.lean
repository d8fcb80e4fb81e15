import Feca.Places.NearbyPool

/-! # Each place once

From the pool to the views every stage keeps the ids apart. Lists of all variants
are sliced to the limit but those of `onboarding_past`, which are as long as the
loops that fill them let them be.
-/

namespace Feca.Places

open Collections Content Social

/-! ## Stages that keep the ids apart -/

theorem IdsDistinct.map {places : List GooglePlaceSummary} (h : IdsDistinct places)
    {f : GooglePlaceSummary → GooglePlaceSummary}
    (hf : ∀ place, (f place).googlePlaceId = place.googlePlaceId) : IdsDistinct (places.map f) := by
  have hsame : (places.map f).map (·.googlePlaceId) = places.map (·.googlePlaceId) := by
    rw [List.map_map]
    exact List.map_congr_left fun place _ => hf place
  unfold IdsDistinct
  rw [hsame]
  exact h

theorem withOpening_id (patches : OrderedMap String OpeningPatch) (place : GooglePlaceSummary) :
    (withOpening patches place).googlePlaceId = place.googlePlaceId := by
  unfold withOpening
  split <;> rfl

theorem idsDistinct_forcedPlaces (curationRows : List CurationRow) (limit : Rat) :
    IdsDistinct (forcedPlaces curationRows limit) := by
  refine List.foldlRecOn (motive := IdsDistinct) _ _ idsDistinct_nil ?_
  intro forced hforced row _
  unfold forcePlace
  split
  · exact hforced
  · split
    · exact hforced
    · unfold pushNew
      split
      · exact hforced
      · rename_i hnew
        exact idsDistinct_concat hforced (Bool.eq_false_iff.mpr hnew)

theorem idsDistinct_prependAdminCuratedPlaces {ranked : List GooglePlaceSummary}
    (h : IdsDistinct ranked) (curationRows : List CurationRow) (limit : Rat) :
    IdsDistinct (prependAdminCuratedPlaces ranked curationRows limit) :=
  (idsDistinct_inFront (idsDistinct_forcedPlaces curationRows limit) h).sublist
    (List.take_sublist _ _)

theorem idsDistinct_rankNearbyPlaceResults (env : RankingEnv) (userId : Id)
    (input : NearbyRankingInput) {places : List GooglePlaceSummary} (h : IdsDistinct places)
    (context : NearbyRankingContext) :
    IdsDistinct (rankNearbyPlaceResults env userId input places context) := by
  by_cases hnone : (qualified input.variant context places).length = 0
  · unfold rankNearbyPlaceResults
    rw [if_pos hnone]
    exact idsDistinct_nil
  by_cases hmix : homeMix input.variant = true
  · rw [rankNearbyPlaceResults_eq hmix h hnone]
    exact (idsDistinct_upForSlots env userId input context h).sublist (underQuota_sublist _ _)
  · unfold rankNearbyPlaceResults
    rw [if_neg hnone, if_neg hmix]
    have hordered := (idsDistinct_qualified h).subperm
      (orderedPlaces_perm env userId input context (qualified input.variant context places)).subperm
    exact hordered.sublist (List.take_sublist _ _)

section work

variable {reads : NearbyReads} (hpool : ∀ googlePool, IdsDistinct (reads.candidatePool googlePool))
  {input : GetNearbyPlacesQuery} (htext : input.text = none)

include hpool htext

theorem idsDistinct_candidatesOf : IdsDistinct (candidatesOf reads input) := by
  unfold candidatesOf
  rw [htext, Option.isSome_none, if_neg Bool.false_ne_true]
  exact hpool _

theorem idsDistinct_visibleCandidatesOf : IdsDistinct (visibleCandidatesOf reads input) := by
  unfold visibleCandidatesOf
  split
  · exact (idsDistinct_mergeCityCurations _ _).sublist List.filter_sublist
  · exact (idsDistinct_candidatesOf hpool htext).sublist List.filter_sublist

theorem idsDistinct_workOf (google : GooglePlaces) : IdsDistinct (workOf google reads input) := by
  have hvisible := idsDistinct_visibleCandidatesOf hpool htext
  refine IdsDistinct.sublist ?_ List.filter_sublist
  unfold variantCandidates
  split
  · exact idsDistinct_nil
  · split
    · exact (hvisible.map (withOpening_id _)).sublist List.filter_sublist
    · split
      · exact (idsDistinct_candidatesOf hpool htext).sublist List.filter_sublist
      · exact hvisible

omit hpool in
theorem rankedPlaces_eq (env : RankingEnv) (google : GooglePlaces) (userId : Id)
    (coords : Rat × Rat) :
    rankedPlaces env google reads userId input coords =
      if shouldPrependAdmin reads input then
        prependAdminCuratedPlaces
          (rankNearbyPlaceResults env userId (input.ranking coords) (workOf google reads input)
            (rankingContext reads)) (cityRows reads) input.limit
      else
        rankNearbyPlaceResults env userId (input.ranking coords) (workOf google reads input)
          (rankingContext reads) := by
  have hsome : ¬ input.text.isSome = true := by simp [htext]
  unfold rankedPlaces
  dsimp only
  rw [if_neg hsome]

theorem idsDistinct_rankedPlaces (env : RankingEnv) (google : GooglePlaces) (userId : Id)
    (coords : Rat × Rat) : IdsDistinct (rankedPlaces env google reads userId input coords) := by
  have hranked := idsDistinct_rankNearbyPlaceResults env userId (input.ranking coords)
    (idsDistinct_workOf hpool htext google) (rankingContext reads)
  rw [rankedPlaces_eq htext]
  split
  · exact idsDistinct_prependAdminCuratedPlaces hranked _ _
  · exact hranked

end work

/-! ## How long a list is -/

theorem length_prependAdminCuratedPlaces_le (ranked : List GooglePlaceSummary)
    (curationRows : List CurationRow) (limit : Rat) :
    (prependAdminCuratedPlaces ranked curationRows limit).length ≤ slots limit :=
  List.length_take_le _ _

section length

variable (env : RankingEnv) (userId : Id) (input : NearbyRankingInput)
  {places : List GooglePlaceSummary} (context : NearbyRankingContext)

/-- Lists of the other variants are sliced. -/
theorem length_rankNearbyPlaceResults_le (hdistinct : IdsDistinct places)
    (hvariant : input.variant ≠ some .onboardingPast) :
    (rankNearbyPlaceResults env userId input places context).length ≤ slots input.limit := by
  by_cases hnone : (qualified input.variant context places).length = 0
  · unfold rankNearbyPlaceResults
    rw [if_pos hnone]
    exact Nat.zero_le _
  by_cases hmix : homeMix input.variant = true
  · have hpins : pinsCurations input.variant = true := by
      simp [pinsCurations, hmix, isOnboardingPast, hvariant]
    rw [rankNearbyPlaceResults_eq hmix hdistinct hnone, upForSlots, if_pos hpins]
    exact (length_underCap_le _ _ _ _).trans (List.length_take_le _ _)
  · unfold rankNearbyPlaceResults
    rw [if_neg hnone, if_neg hmix]
    exact List.length_take_le _ _

variable (places) in
/-- The limit is whole, or there are no more candidates than it, or no curations, or the cap
passes over one of the first places. -/
def StaysInLimit : Prop :=
  capacity input.limit ≤ slots input.limit ∨
  ((qualified input.variant context places).length : Rat) ≤ input.limit ∨
  context.curatedGoogleIds.keys.length = 0 ∨
  ¬ WithinCap context.curatedGoogleIds.has (isBoosted context.adminBoostByGoogleId)
    (diversified env userId input places context)

/-- A list of `onboarding_past` is as long as the limit rounded up, unless something keeps it
short. -/
theorem length_onboardingPast_le_iff (hlimit : 0 ≤ input.limit) (hdistinct : IdsDistinct places)
    (hvariant : input.variant = some .onboardingPast) :
    (rankNearbyPlaceResults env userId input places context).length ≤ slots input.limit ↔
      StaysInLimit env userId input places context := by
  have hmix : homeMix input.variant = true := by
    rw [hvariant]
    rfl
  have hpins : ¬ pinsCurations input.variant = true := by
    rw [hvariant]
    decide
  unfold StaysInLimit
  by_cases hnone : (qualified input.variant context places).length = 0
  · have hfew : ((qualified input.variant context places).length : Rat) ≤ input.limit := by
      rw [hnone]
      exact_mod_cast hlimit
    unfold rankNearbyPlaceResults
    rw [if_pos hnone]
    exact iff_of_true (Nat.zero_le _) (.inr (.inl hfew))
  rw [rankNearbyPlaceResults_eq hmix hdistinct hnone, upForSlots, if_neg hpins]
  by_cases hcurated : context.curatedGoogleIds.keys.length = 0
  · rw [if_pos hcurated]
    refine iff_of_true ?_ (.inr (.inr (.inl hcurated)))
    exact (length_underCap_le _ _ _ _).trans (List.length_take_le _ _)
  rw [if_neg hcurated]
  have hlength := length_diversify env
    (orderedPlaces env userId input context (qualified input.variant context places)) input.limit
  rw [(orderedPlaces_perm env userId input context _).length_eq] at hlength
  change (diversified env userId input places context).length = _ at hlength
  generalize diversified env userId input places context = first at hlength
  have hpassed := length_underCap_le context.curatedGoogleIds.has
    (isBoosted context.adminBoostByGoogleId) 0 first
  by_cases hfew : ((qualified input.variant context places).length : Rat) ≤ input.limit
  · rw [if_pos hfew] at hlength
    have hslots := (natCast_le_iff hlimit).mp hfew
    exact iff_of_true (by omega) (.inr (.inl hfew))
  rw [if_neg hfew] at hlength
  have hcap := length_underCap_iff context.curatedGoogleIds.has
    (isBoosted context.adminBoostByGoogleId) first
  have hnext := capacity_le_slots_succ input.limit
  by_cases hwithin : WithinCap context.curatedGoogleIds.has
      (isBoosted context.adminBoostByGoogleId) first
  · have hall := hcap.mpr hwithin
    simp only [hfew, hcurated, hwithin, not_true_eq_false, or_false]
    constructor <;> intro hle <;> omega
  · have hless := mt hcap.mp hwithin
    exact iff_of_true (by omega) (.inr (.inr (.inr hwithin)))

end length

/-! ## The views -/

/-- Each place once, and no more of them than the limit. -/
def ListsOnce (limit : Rat) (views : List NearbyPlaceView) : Prop :=
  (views.map (·.googlePlaceId)).Nodup ∧ (views.length : Rat) ≤ limit

theorem map_id_of_shown {views : List NearbyPlaceView} {places : List GooglePlaceSummary}
    (h : views.map shownView = places.map shown) :
    views.map (·.googlePlaceId) = places.map (·.googlePlaceId) := by
  have hfst := congrArg (List.map Prod.fst) h
  rw [List.map_map, List.map_map] at hfst
  exact hfst

section finalize

variable {reads : NearbyReads} (hpool : ∀ googlePool, IdsDistinct (reads.candidatePool googlePool))
  {input : GetNearbyPlacesQuery} (htext : input.text = none) (hlimit : 1 ≤ input.limit)

include hpool htext hlimit

/-- A finished list has each place once, and stays in the limit but for `onboarding_past`. -/
theorem listsOnce_finalizeNearby_iff (env : RankingEnv) (config : NearbyConfig)
    (google : GooglePlaces) (userId : Id) (coords : Rat × Rat) :
    ListsOnce input.limit (finalizeNearby env config google reads userId input coords) ↔
      (input.variant = some .onboardingPast → StaysInLimit env userId (input.ranking coords)
        (workOf google reads input) (rankingContext reads)) := by
  have hlimit0 : 0 ≤ input.limit := le_trans (by decide) hlimit
  have hwork := idsDistinct_workOf hpool htext google
  unfold finalizeNearby
  by_cases hnone : (workOf google reads input).length = 0
  · rw [if_pos hnone]
    have hnil : workOf google reads input = [] := List.length_eq_zero_iff.mp hnone
    refine iff_of_true ⟨List.nodup_nil, by simpa using hlimit0⟩ fun _ => .inr (.inl ?_)
    rw [hnil]
    have hqualified : qualified (input.ranking coords).variant (rankingContext reads) [] = [] := by
      simp [qualified]
    rw [hqualified]
    exact_mod_cast hlimit0
  rw [if_neg hnone]
  dsimp only
  have hshown := shown_presentNearbyPlaces config google reads
    (fun id => (citySignals reads).curatedGoogleIds.has id ||
      (citySignals reads).cityPickGoogleIds.has id)
    (rankedPlaces env google reads userId input coords)
  generalize presentNearbyPlaces config reads _ _ = views at hshown
  have hids := map_id_of_shown hshown
  have hlength : views.length = (rankedPlaces env google reads userId input coords).length := by
    have hsame := congrArg List.length hids
    rwa [List.length_map, List.length_map] at hsame
  have hdistinct := idsDistinct_rankedPlaces hpool htext env google userId coords
  have honce : ListsOnce input.limit views ↔
      (rankedPlaces env google reads userId input coords).length ≤ slots input.limit := by
    unfold ListsOnce
    rw [hids, hlength, natCast_le_iff hlimit0]
    exact and_iff_right hdistinct
  rw [honce, rankedPlaces_eq htext]
  by_cases hvariant : input.variant = some .onboardingPast
  · have hno : ¬ shouldPrependAdmin reads input = true := by simp [shouldPrependAdmin, hvariant]
    rw [if_neg hno]
    exact (length_onboardingPast_le_iff env userId (input.ranking coords) (rankingContext reads)
      hlimit0 hwork hvariant).trans ⟨fun hstays _ => hstays, fun hstays => hstays hvariant⟩
  · refine iff_of_true ?_ fun h => absurd h hvariant
    split
    · exact length_prependAdminCuratedPlaces_le _ _ _
    · exact length_rankNearbyPlaceResults_le env userId (input.ranking coords)
        (rankingContext reads) hwork hvariant

end finalize

/-- A request without a text lists each place once, whatever is stored and pooled; the limit
holds but for `onboarding_past`, where it holds just if something keeps the list short. -/
theorem nearby_lists_once_iff (env : PoolEnv) (config : NearbyConfig) (google : GooglePlaces)
    (reads : NearbyReads) (pool : PoolReads) (userId : Id) (input : GetNearbyPlacesQuery)
    (htext : input.text = none) (hlimit : 1 ≤ input.limit) :
    ListsOnce input.limit (nearbyFromPool env config google reads pool userId input) ↔
      ∀ coords, resolveViewerCoordinates reads input = some coords →
        input.variant = some .onboardingPast →
          StaysInLimit env.toRankingEnv userId (input.ranking coords)
            (workOf google (reads.withPool env userId coords input.type pool) input)
            (rankingContext reads) := by
  unfold nearbyFromPool
  cases hcoords : resolveViewerCoordinates reads input with
  | none =>
    have hnil : ListsOnce input.limit [] :=
      ⟨List.nodup_nil, le_trans (by decide) hlimit⟩
    exact iff_of_true hnil fun coords h => by cases h
  | some coords =>
    have hpool : ∀ googlePool, IdsDistinct
        ((reads.withPool env userId coords input.type pool).candidatePool googlePool) :=
      idsDistinct_buildNearbyCandidatePool env userId coords input.type reads.cityId pool
    have hfinal := listsOnce_finalizeNearby_iff hpool htext hlimit env.toRankingEnv config google
      userId coords
    dsimp only
    rw [hfinal]
    constructor
    · intro hstays other hother
      cases hother
      exact hstays
    · intro hstays
      exact hstays coords rfl

/-! ## A limit with a fraction -/

def aPoolEnv : PoolEnv := { aRankingEnv with toFixed3 := fun _ => "0.000" }

/-- Google knows the cafe, and the bar is curated. -/
def cafeFromGoogle : NearbyReads :=
  { cafeAndBar with googlePool := cafeAndBar.candidatePool [] }

def noStoredPlaces : PoolReads where
  fecaPositive := []
  similarPlaces _ := []
  cityCurations := []

theorem whole_two : capacity 2 ≤ slots 2 := by decide

theorem cafe_and_bar_fit_two :
    ListsOnce 2 (nearbyFromPool aPoolEnv ⟨false, 0, false⟩ withoutGoogle cafeFromGoogle
      noStoredPlaces "ana" { variant := some .onboardingPast, limit := 2 }) :=
  (nearby_lists_once_iff aPoolEnv ⟨false, 0, false⟩ withoutGoogle cafeFromGoogle noStoredPlaces
    "ana" { variant := some .onboardingPast, limit := 2 } rfl (by decide)).mpr
      fun _ _ _ => .inl whole_two

/-- Both are listed for one slot and a half. -/
theorem cafe_and_bar_exceed_one_and_a_half :
    ¬ ListsOnce (3 / 2) (nearbyFromPool aPoolEnv ⟨false, 0, false⟩ withoutGoogle cafeFromGoogle
      noStoredPlaces "ana" { variant := some .onboardingPast, limit := 3 / 2 }) := by
  intro hlists
  exact absurd hlists.2 (by decide +kernel)

end Feca.Places
