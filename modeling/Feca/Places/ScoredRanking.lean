import Feca.Content.Raising
import Feca.Places.OpenNow
import Feca.Places.Scores
import Mathlib.Tactic.Ring

/-! # What the scores of a ranking do

In the lists of the network a place with more support is never behind where it would
be with less. The scores returned in debugging belong to the places listed, and say
all that the ranking has looked at.
-/

namespace Feca.Places

open Collections Content Social

/-! ## The candidates -/

section candidates

variable {env : RankingEnv} {userId : Id} {input : NearbyRankingInput}
  {places work : List GooglePlaceSummary} {context : NearbyRankingContext}

theorem rankedCandidates_item : (rankedCandidates env userId input context work).map (·.item) =
    orderedPlaces env userId input context work := rfl

theorem qualified_qualified (variant : Option NearbyVariant) (context : NearbyRankingContext)
    (places : List GooglePlaceSummary) :
    qualified variant context (qualified variant context places) =
      qualified variant context places := by
  unfold qualified
  by_cases hmix : homeMix variant = true
  · simp [hmix]
  · simp [hmix]

/-- Behind the city picks a ranking lists candidates of quality only. -/
theorem rankNearbyPlaceResults_qualified (env : RankingEnv) (userId : Id)
    (input : NearbyRankingInput) (places : List GooglePlaceSummary)
    (context : NearbyRankingContext) :
    ∃ tail, rankNearbyPlaceResults env userId input places context =
      shownPicks input context places ++ tail ∧
        tail ⊆ qualified input.variant context places := by
  obtain ⟨tail, heq, hsub⟩ := rankNearbyPlaceResults_spec env userId input
    (qualified input.variant context places) context
  have hsame := qualified_qualified input.variant context places
  refine ⟨tail, ?_, hsub⟩
  unfold rankNearbyPlaceResults shownPicks at heq ⊢
  rw [hsame] at heq
  exact heq

theorem mem_shownPicks {place : GooglePlaceSummary} (h : place ∈ shownPicks input context places) :
    place ∈ context.cityPickPlaces := by
  unfold shownPicks at h
  split at h
  · exact (pinnedPicks_spec _).1 (List.take_subset _ _ h)
  · cases h

theorem homeMix_of_useNetworkInRank {variant : Option NearbyVariant}
    (h : useNetworkInRank variant = true) : homeMix variant = false := by
  simp [homeMix, h]

/-- In the lists of the network every candidate is ranked, and the first ones are listed. -/
theorem rankNearbyPlaceResults_network (h : useNetworkInRank input.variant = true) :
    rankNearbyPlaceResults env userId input places context =
      sliceTo input.limit (orderedPlaces env userId input context places) := by
  have hmix := homeMix_of_useNetworkInRank h
  unfold rankNearbyPlaceResults qualified
  rw [hmix]
  by_cases hnone : places.length = 0
  · rw [List.length_eq_zero_iff.mp hnone]
    have hempty := (orderedPlaces_perm env userId input context []).eq_nil
    simp [hempty, sliceTo]
  · simp [hnone]

end candidates

/-! ## More support -/

section support

variable {env : RankingEnv} {userId : Id} {input : NearbyRankingInput}
  {places : List GooglePlaceSummary}

/-- The ranking, by what the places score. -/
theorem orderedPlaces_eq (context : NearbyRankingContext) :
    orderedPlaces env userId input context places =
      rankedItems env.toContentEnv (stableUnitInterval env.toContentEnv)
        (rotationOptions env userId input context places) (·.googlePlaceId) context.baseScore
          places := rfl

theorem ratio_rotationOptions (env : RankingEnv) (userId : Id) (input : NearbyRankingInput)
    (places : List GooglePlaceSummary) (context : NearbyRankingContext) :
    0 ≤ (rotationOptions env userId input context places).jitterRatio.getD (8 / 100) ∧
      (rotationOptions env userId input context places).jitterRatio.getD (8 / 100) ≤ 1 := by
  unfold rotationOptions
  dsimp only [Option.getD_some]
  by_cases hmix : homeMix input.variant = true
  · rw [if_pos hmix]
    by_cases hpersonal : context.hasPersonalization = true
    · rw [if_pos hpersonal]
      norm_num
    · rw [if_neg hpersonal]
      norm_num
  · rw [if_neg hmix]
    norm_num

theorem networkBoostScoreForVariant_mono (variant : Option NearbyVariant) {boost boost' : Int}
    (h : boost ≤ boost') :
    networkBoostScoreForVariant variant boost ≤ networkBoostScoreForVariant variant boost' := by
  have hcast : (boost : Rat) ≤ (boost' : Rat) := by exact_mod_cast h
  unfold networkBoostScoreForVariant
  by_cases hnetwork : variant = some .homeNetwork
  · rw [if_pos hnetwork, if_pos hnetwork]
    exact min_le_min_left _ hcast
  · rw [if_neg hnetwork, if_neg hnetwork]
    by_cases hfriends : variant = some .homeFriendsLiked
    · rw [if_pos hfriends, if_pos hfriends]
      apply min_le_min_left
      linarith
    · rw [if_neg hfriends, if_neg hfriends]

/-- The same context with other boosts from the network. -/
def NearbyScoringContext.withNetworkBoosts (context : NearbyScoringContext)
    (boosts : OrderedMap String Int) : NearbyScoringContext :=
  { context with networkBoostByGoogleId := boosts }

section boosts

variable (context : NearbyScoringContext) (boosts : OrderedMap String Int) (outing : Nat)
  (place : GooglePlaceSummary)

/-- A score depends on the network through its part only. -/
theorem baseScore_sub_networkScore :
    (context.withNetworkBoosts boosts).baseScore env.toContentEnv input outing place -
        (context.withNetworkBoosts boosts).networkScore input.variant place.googlePlaceId =
      context.baseScore env.toContentEnv input outing place -
        context.networkScore input.variant place.googlePlaceId := by
  have hbase : (context.withNetworkBoosts boosts).distanceBase env.toContentEnv input place =
      context.distanceBase env.toContentEnv input place := rfl
  have hparts : ∀ c : NearbyScoringContext,
      (c.breakdown env.toContentEnv input outing place).total -
          c.networkScore input.variant place.googlePlaceId =
        ({ c.breakdown env.toContentEnv input outing place with network := 0 } :
          ScoreComponentBreakdown).total := by
    intro c
    unfold ScoreComponentBreakdown.total NearbyScoringContext.breakdown
    dsimp only
    ring
  unfold NearbyScoringContext.baseScore
  rw [hbase, add_sub_assoc, hparts, add_sub_assoc, hparts]
  rfl

variable {context boosts place}

theorem baseScore_le_withNetworkBoosts (hvariant : useNetworkInRank input.variant = true)
    (h : (context.networkBoostByGoogleId.get place.googlePlaceId).getD 0 ≤
      (boosts.get place.googlePlaceId).getD 0) :
    context.baseScore env.toContentEnv input outing place ≤
      (context.withNetworkBoosts boosts).baseScore env.toContentEnv input outing place := by
  have hnetwork : context.networkScore input.variant place.googlePlaceId ≤
      (context.withNetworkBoosts boosts).networkScore input.variant place.googlePlaceId := by
    unfold NearbyScoringContext.networkScore
    dsimp only
    rw [if_pos hvariant, if_pos hvariant]
    exact networkBoostScoreForVariant_mono input.variant h
  have hrest := @baseScore_sub_networkScore env input context boosts outing place
  linarith

theorem baseScore_withNetworkBoosts_of_same (h : (boosts.get place.googlePlaceId).getD 0 =
      (context.networkBoostByGoogleId.get place.googlePlaceId).getD 0) :
    (context.withNetworkBoosts boosts).baseScore env.toContentEnv input outing place =
      context.baseScore env.toContentEnv input outing place := by
  have hnetwork : (context.withNetworkBoosts boosts).networkScore input.variant
      place.googlePlaceId = context.networkScore input.variant place.googlePlaceId := by
    unfold NearbyScoringContext.networkScore NearbyScoringContext.withNetworkBoosts
    rw [h]
  have hrest := @baseScore_sub_networkScore env input context boosts outing place
  linarith

end boosts

/-- What the outing preferences are worth, where they can be read. -/
def NearbyScoringContext.outing (context : NearbyScoringContext) : Nat :=
  (scoreOutingAgainstIntent context.scoringIntent context.outingPreferences).toOption.getD 0

/-- The candidates that are ranked. -/
def NearbyScoringContext.work (context : NearbyScoringContext) (env : RankingEnv)
    (input : NearbyRankingInput) (places : List GooglePlaceSummary) : List GooglePlaceSummary :=
  qualified input.variant (context.ranking env.toContentEnv input context.outing) places

/-- Which candidates have the quality is not a matter of their scores. -/
theorem qualified_congr {a b : NearbyRankingContext}
    (hstats : a.fecaQualityByGoogleId = b.fecaQualityByGoogleId)
    (hboosts : a.adminBoostByGoogleId = b.adminBoostByGoogleId)
    (hcurated : a.curatedGoogleIds = b.curatedGoogleIds) (variant : Option NearbyVariant)
    (places : List GooglePlaceSummary) :
    qualified variant a places = qualified variant b places := by
  have hquality : hasQuality a = hasQuality b := by
    funext place
    rw [hasQuality, hasQuality, isProtected, isProtected, hstats, hboosts, hcurated]
  rw [qualified, qualified, hquality]

/-- A ranking that does not fail lists the places by their scores. -/
theorem places_of_rankScored {context : NearbyScoringContext} {ranking : NearbyRanking}
    (h : rankScoredNearbyPlaces env userId input places context = .ok ranking) :
    ranking.places = rankNearbyPlaceResults env userId input places
      (context.ranking env.toContentEnv input context.outing) := by
  unfold rankScoredNearbyPlaces at h
  dsimp only at h
  by_cases hnone : (qualified input.variant (context.ranking env.toContentEnv input 0)
      places).length = 0
  · rw [if_pos hnone] at h
    cases h
    rw [@qualified_congr (context.ranking env.toContentEnv input 0)
      (context.ranking env.toContentEnv input context.outing) rfl rfl rfl] at hnone
    unfold rankNearbyPlaceResults
    rw [if_pos hnone]
  · rw [if_neg hnone] at h
    unfold NearbyScoringContext.outing
    cases hread : scoreOutingAgainstIntent context.scoringIntent context.outingPreferences with
    | error e =>
      rw [hread] at h
      cases h
    | ok outing =>
      rw [hread] at h
      by_cases hdebug : context.debugScores = true
      · simp only [hdebug] at h
        cases h
        rfl
      · simp only [hdebug] at h
        cases h
        rfl

/-- Other boosts do not make a ranking fail. -/
theorem rankScored_withNetworkBoosts {context : NearbyScoringContext} {ranking : NearbyRanking}
    (boosts : OrderedMap String Int)
    (h : rankScoredNearbyPlaces env userId input places context = .ok ranking) :
    ∃ ranking', rankScoredNearbyPlaces env userId input places
      (context.withNetworkBoosts boosts) = .ok ranking' := by
  have hqualified := @qualified_congr
    ((context.withNetworkBoosts boosts).ranking env.toContentEnv input 0)
    (context.ranking env.toContentEnv input 0) rfl rfl rfl input.variant places
  unfold rankScoredNearbyPlaces at h ⊢
  dsimp only at h ⊢
  by_cases hnone : (qualified input.variant (context.ranking env.toContentEnv input 0)
      places).length = 0
  · rw [hqualified, if_pos hnone]
    exact ⟨_, rfl⟩
  · rw [if_neg hnone] at h
    rw [hqualified, if_neg hnone]
    cases hread : scoreOutingAgainstIntent context.scoringIntent context.outingPreferences with
    | error e =>
      rw [hread] at h
      cases h
    | ok outing =>
      have hread' : scoreOutingAgainstIntent (context.withNetworkBoosts boosts).scoringIntent
        (context.withNetworkBoosts boosts).outingPreferences = .ok outing := hread
      rw [hread']
      by_cases hdebug : (context.withNetworkBoosts boosts).debugScores = true
      · simp only [hdebug]
        exact ⟨_, rfl⟩
      · simp only [hdebug]
        exact ⟨_, rfl⟩

end support

/-- In the lists of the network, for every viewer, request and list of candidates: if the network
supports one of them more and the others as before, it is listed if it was, and only what
was before it still is. -/
theorem network_support_never_demotes (env : RankingEnv)
    (hhash : UnitHash (stableUnitInterval env.toContentEnv)) (userId : Id)
    (input : NearbyRankingInput) (hvariant : useNetworkInRank input.variant = true)
    (places : List GooglePlaceSummary) (hids : IdsDistinct places)
    (horder : OrdersIds env.localeCompare (places.map (·.googlePlaceId)))
    (context : NearbyScoringContext) (boosts : OrderedMap String Int)
    (place : GooglePlaceSummary) (hplace : place ∈ places)
    (hmore : (context.networkBoostByGoogleId.get place.googlePlaceId).getD 0 ≤
      (boosts.get place.googlePlaceId).getD 0)
    (hsame : ∀ other ∈ places, other ≠ place → (boosts.get other.googlePlaceId).getD 0 =
      (context.networkBoostByGoogleId.get other.googlePlaceId).getD 0)
    (ranking : NearbyRanking)
    (h : rankScoredNearbyPlaces env userId input places context = .ok ranking) :
    ∃ ranking', rankScoredNearbyPlaces env userId input places
        (context.withNetworkBoosts boosts) = .ok ranking' ∧
      (place ∈ ranking.places → place ∈ ranking'.places ∧
        ∀ other, Precedes ranking'.places other place → Precedes ranking.places other place) := by
  obtain ⟨ranking', h'⟩ := rankScored_withNetworkBoosts boosts h
  refine ⟨ranking', h', fun hlisted => ?_⟩
  have houting : (context.withNetworkBoosts boosts).outing = context.outing := rfl
  have hplaces := places_of_rankScored h
  have hplaces' := places_of_rankScored h'
  rw [rankNearbyPlaceResults_network hvariant] at hplaces hplaces'
  rw [orderedPlaces_eq] at hplaces hplaces'
  rw [houting] at hplaces'
  have hup := @baseScore_le_withNetworkBoosts env input context boosts context.outing place hvariant
    hmore
  have hothers : ∀ other ∈ places, other ≠ place →
      (context.withNetworkBoosts boosts).baseScore env.toContentEnv input context.outing other =
        context.baseScore env.toContentEnv input context.outing other := by
    intro other hother hne
    exact baseScore_withNetworkBoosts_of_same context.outing (hsame other hother hne)
  obtain ⟨hahead, hfirst⟩ := rankedItems_not_overtaken horder hhash
    (ratio_rotationOptions env userId input places
      (context.ranking env.toContentEnv input context.outing)) hids hplace hup hothers
  rw [hplaces] at hlisted ⊢
  rw [hplaces']
  refine ⟨hfirst _ hlisted, fun other hother => ?_⟩
  have hnodup : (rankedItems env.toContentEnv (stableUnitInterval env.toContentEnv)
      (rotationOptions env userId input (context.ranking env.toContentEnv input context.outing)
        places) (·.googlePlaceId) (context.baseScore env.toContentEnv input context.outing)
          places).Nodup :=
    (orderedPlaces_perm env userId input (context.ranking env.toContentEnv input context.outing)
      places).nodup_iff.mpr (List.Nodup.of_map _ hids)
  exact (hahead other (hother.trans (List.take_sublist _ _))).take hnodup hlisted

/-! ## A bar and a cafe -/

def listedBar : GooglePlaceSummary :=
  { googlePlaceId := "bar", name := "Bar", address := "Calle 7", lat := 0, lng := 0 }

def listedCafe : GooglePlaceSummary :=
  { googlePlaceId := "cafe", name := "Cafe", address := "Calle 1", lat := 0, lng := 0 }

def barAndCafe : List GooglePlaceSummary := [listedBar, listedCafe]

theorem idsDistinct_barAndCafe : IdsDistinct barAndCafe := by
  unfold IdsDistinct
  decide

/-- Nothing is known of the viewer. -/
def noSignals : NearbyScoringContext where
  tastePreferenceIds := []
  importedPlaceCategoryIds := []
  likedVisitedPlaceCategoryIds := []
  dislikedVisitedPlaceCategoryIds := []
  outingPreferences := .null
  inferredIntent := .solo
  likedNearbyGooglePlaceIds := .empty
  fecaQualityByGoogleId := .empty
  adminBoostByGoogleId := .empty
  curatedGoogleIds := .empty
  cityPickPlaces := []
  networkBoostByGoogleId := .empty
  debugScores := true

def networkList : NearbyRankingInput := { lat := 0, lng := 0, limit := 20, variant := some .homeNetwork }

/-- A friend has been to the bar. -/
theorem supported_bar_is_not_demoted : ∃ ranking ranking' : NearbyRanking,
    rankScoredNearbyPlaces aRankingEnv "ana" networkList barAndCafe
      (noSignals.withNetworkBoosts (OrderedMap.empty.set "bar" 10)) = .ok ranking' ∧
    (listedBar ∈ ranking.places → listedBar ∈ ranking'.places ∧
      ∀ other, Precedes ranking'.places other listedBar → Precedes ranking.places other listedBar) := by
  have hothers : ∀ other ∈ barAndCafe, other ≠ listedBar →
      (((OrderedMap.empty : OrderedMap String Int).set "bar" 10).get other.googlePlaceId).getD 0 =
        (noSignals.networkBoostByGoogleId.get other.googlePlaceId).getD 0 := by
    decide
  exact ⟨_, network_support_never_demotes aRankingEnv unitHash_aContentEnv "ana" networkList
    rfl barAndCafe idsDistinct_barAndCafe (ordersIds_compareCodePoints _) noSignals
    (OrderedMap.empty.set "bar" 10) listedBar List.mem_cons_self (by decide) hothers _ rfl⟩

/-! ## What debugging shows -/

/-- The most a jitter can be. -/
def mostJitter (context : NearbyScoringContext) (variant : Option NearbyVariant) : Rat :=
  if homeMix variant then if context.hasPersonalization then 3 else 6 else 14

/-- The rows of a ranking belong to the places listed, each of them once, and explain them. -/
structure RowsExplain (env : RankingEnv) (input : NearbyRankingInput)
    (context : NearbyScoringContext) (work : List GooglePlaceSummary) (ranking : NearbyRanking)
    (rows : List NearbyScoreBreakdown) : Prop where
  once : (rows.map (·.googlePlaceId)).Nodup
  listed : ∀ row ∈ rows, hasId row.googlePlaceId ranking.places = true
  /-- The places without a row are city picks that are no candidates. -/
  missing : ∀ place ∈ ranking.places, place.googlePlaceId ∈ rows.map (·.googlePlaceId) ∨
    (place ∈ context.cityPickPlaces ∧ hasId place.googlePlaceId work = false)
  sums : ∀ row ∈ rows, ∃ place ∈ work,
    row.googlePlaceId = place.googlePlaceId ∧ row.name = place.name ∧
    row.toScoreComponentBreakdown =
      context.breakdown env.toContentEnv input context.outing place ∧
    row.baseScore = context.distanceBase env.toContentEnv input place +
      row.toScoreComponentBreakdown.total ∧
    row.finalScore = row.baseScore + row.jitter ∧ |row.jitter| ≤ mostJitter context input.variant

section rows

variable {env : RankingEnv} {userId : Id} {input : NearbyRankingInput}
  {work : List GooglePlaceSummary} {context : NearbyScoringContext}

/-- Every entry of a ranking is a candidate, with a jitter or without. -/
theorem mem_rankCandidatesByHash {α : Type} {env : ContentEnv} {hash : String → Rat}
    {options : DynamicRankingOptions} {candidates : List (RankedCandidate α)}
    {entry : ScoredCandidate α} (h : entry ∈ rankCandidatesByHash env hash candidates options) :
    ∃ candidate ∈ candidates, entry = candidate.withScore candidate.baseScore ∨
      entry = rotated env hash options candidate := by
  unfold rankCandidatesByHash at h
  by_cases hfew : candidates.length ≤ 1
  · rw [if_pos hfew] at h
    obtain ⟨candidate, hmem, rfl⟩ := List.mem_map.mp h
    exact ⟨candidate, hmem, .inl rfl⟩
  · rw [if_neg hfew] at h
    cases List.mem_append.mp h with
    | inl htop =>
      obtain ⟨candidate, hmem, rfl⟩ := List.mem_map.mp ((List.mem_insertionSort _).mp htop)
      exact ⟨candidate, (List.mem_insertionSort _).mp (List.mem_of_mem_take hmem), .inr rfl⟩
    | inr hrest =>
      obtain ⟨candidate, hmem, rfl⟩ := List.mem_map.mp hrest
      exact ⟨candidate, (List.mem_insertionSort _).mp (List.mem_of_mem_drop hmem), .inl rfl⟩

theorem mostJitter_nonneg (context : NearbyScoringContext) (variant : Option NearbyVariant) :
    0 ≤ mostJitter context variant := by
  unfold mostJitter
  split
  · split <;> norm_num
  · norm_num

/-- What a ranking makes of a candidate. -/
theorem rankedCandidates_entry (hhash : UnitHash (stableUnitInterval env.toContentEnv))
    {outing : Nat} {entry : ScoredCandidate GooglePlaceSummary}
    (h : entry ∈ rankedCandidates env userId input
      (context.ranking env.toContentEnv input outing) work) :
    entry.item ∈ work ∧ entry.id = entry.item.googlePlaceId ∧
      entry.baseScore = context.baseScore env.toContentEnv input outing entry.item ∧
        |entry.score - entry.baseScore| ≤ mostJitter context input.variant := by
  obtain ⟨candidate, hmem, hentry⟩ := mem_rankCandidatesByHash h
  obtain ⟨place, hplace, rfl⟩ := List.mem_map.mp hmem
  rcases hentry with rfl | rfl
  · refine ⟨hplace, rfl, rfl, ?_⟩
    unfold RankedCandidate.withScore
    rw [sub_self, abs_zero]
    exact mostJitter_nonneg context input.variant
  · refine ⟨hplace, rfl, rfl, ?_⟩
    unfold rotated RankedCandidate.withScore
    dsimp only
    rw [add_sub_cancel_left]
    cases resolveJitterSpan_sign (rotationOptions env userId input
      (context.ranking env.toContentEnv input outing) work) with
    | inl hspan => exact (abs_computeStableJitter_le hhash _ (hspan _)).trans (min_le_left _ _)
    | inr hspan =>
      rw [computeStableJitter_of_nonpos _ _ (hspan _), abs_zero]
      exact mostJitter_nonneg context input.variant

theorem ids_rankedCandidates (hids : IdsDistinct work) (ranking : NearbyRankingContext) :
    ((rankedCandidates env userId input ranking work).map (·.item.googlePlaceId)).Nodup := by
  have hperm := (orderedPlaces_perm env userId input ranking work).map (·.googlePlaceId)
  rw [← rankedCandidates_item, List.map_map] at hperm
  exact hperm.nodup_iff.mpr hids

/-- The parts kept by id are those of the candidate. -/
theorem get_breakdownById (hids : IdsDistinct work) {outing : Nat} {place : GooglePlaceSummary}
    (hplace : place ∈ work) :
    (setEach (fun place : GooglePlaceSummary => some place.googlePlaceId)
      (context.breakdown env.toContentEnv input outing) .empty work).get place.googlePlaceId =
        some (context.breakdown env.toContentEnv input outing place) := by
  have hkey : (fun place : GooglePlaceSummary => some place.googlePlaceId) place =
    some place.googlePlaceId := rfl
  refine get_setEach_of_unique _ _ hplace hkey ?_
  intro other hother hid
  rw [List.inj_on_of_nodup_map hids hother hplace (Option.some.inj hid)]

/-- The rows are those of the candidates listed, in the order of the ranking. -/
theorem rows_of_rankScored {places : List GooglePlaceSummary} {ranking : NearbyRanking}
    {rows : List NearbyScoreBreakdown}
    (h : rankScoredNearbyPlaces env userId input places context = .ok ranking)
    (hrows : ranking.debugScores = some rows) :
    rows = ((rankedCandidates env userId input
      (context.ranking env.toContentEnv input context.outing)
        (context.work env input places)).filter fun entry => hasId entry.id ranking.places).map
          (debugRow (setEach (fun place : GooglePlaceSummary => some place.googlePlaceId)
            (context.breakdown env.toContentEnv input context.outing) .empty
              (context.work env input places))) := by
  unfold rankScoredNearbyPlaces at h
  dsimp only at h
  by_cases hnone : (qualified input.variant (context.ranking env.toContentEnv input 0)
      places).length = 0
  · rw [if_pos hnone] at h
    cases h
    cases hrows
  · rw [if_neg hnone] at h
    unfold NearbyScoringContext.work NearbyScoringContext.outing
    cases hread : scoreOutingAgainstIntent context.scoringIntent context.outingPreferences with
    | error e =>
      rw [hread] at h
      cases h
    | ok outing =>
      rw [hread] at h
      by_cases hdebug : context.debugScores = true
      · simp only [hdebug] at h
        cases h
        cases hrows
        have houting : (Except.ok outing : Except Thrown Nat).toOption.getD 0 = outing := rfl
        rw [houting, @qualified_congr (context.ranking env.toContentEnv input outing)
          (context.ranking env.toContentEnv input 0) rfl rfl rfl]
      · simp only [hdebug] at h
        cases h
        cases hrows

end rows

/-- For every viewer, request and list of candidates: the rows returned in debugging are those of
the candidates listed, one each; their parts and the score of the distance add up to the base
score, and this is within a small jitter of the final one. -/
theorem debug_scores_explain_the_ranking (env : RankingEnv)
    (hhash : UnitHash (stableUnitInterval env.toContentEnv)) (userId : Id)
    (input : NearbyRankingInput) (places : List GooglePlaceSummary) (hids : IdsDistinct places)
    (context : NearbyScoringContext) (ranking : NearbyRanking) (rows : List NearbyScoreBreakdown)
    (h : rankScoredNearbyPlaces env userId input places context = .ok ranking)
    (hrows : ranking.debugScores = some rows) :
    RowsExplain env input context (context.work env input places) ranking rows := by
  have hplaces := places_of_rankScored h
  have hshape := rows_of_rankScored h hrows
  have hwork : IdsDistinct (context.work env input places) := by
    unfold NearbyScoringContext.work qualified
    split
    · exact hids.sublist List.filter_sublist
    · exact hids
  have hentries := @ids_rankedCandidates env userId input (context.work env input places) hwork
    (context.ranking env.toContentEnv input context.outing)
  -- a row, by the candidate it is about
  have hrow : ∀ row ∈ rows, ∃ place ∈ context.work env input places,
      hasId place.googlePlaceId ranking.places = true ∧
      row.googlePlaceId = place.googlePlaceId ∧ row.name = place.name ∧
      row.toScoreComponentBreakdown =
        context.breakdown env.toContentEnv input context.outing place ∧
      row.baseScore = context.baseScore env.toContentEnv input context.outing place ∧
      row.finalScore = row.baseScore + row.jitter ∧
      |row.jitter| ≤ mostJitter context input.variant := by
    intro row hmem
    rw [hshape] at hmem
    obtain ⟨entry, hentry, rfl⟩ := List.mem_map.mp hmem
    obtain ⟨hin, hlisted⟩ := List.mem_filter.mp hentry
    obtain ⟨hplace, hid, hbase, hjitter⟩ := rankedCandidates_entry hhash hin
    refine ⟨entry.item, hplace, hid ▸ hlisted, hid, rfl, ?_, hbase, ?_, hjitter⟩
    · show (OrderedMap.get _ entry.id).getD noBreakdown = _
      rw [hid, get_breakdownById hwork hplace]
      rfl
    · exact (add_sub_cancel _ _).symm
  refine ⟨?_, ?_, ?_, ?_⟩
  · have hids' : rows.map (·.googlePlaceId) = ((rankedCandidates env userId input
        (context.ranking env.toContentEnv input context.outing)
          (context.work env input places)).filter fun entry => hasId entry.id ranking.places).map
            (·.item.googlePlaceId) := by
      rw [hshape, List.map_map]
      refine List.map_congr_left fun entry hentry => ?_
      exact (rankedCandidates_entry hhash (List.mem_filter.mp hentry).1).2.1
    rw [hids']
    exact hentries.sublist (List.filter_sublist.map _)
  · intro row hmem
    obtain ⟨place, -, hlisted, hid, -⟩ := hrow row hmem
    rw [hid]
    exact hlisted
  · intro place hplace
    by_cases hcandidate : hasId place.googlePlaceId (context.work env input places) = true
    · left
      obtain ⟨candidate, hmem, hid⟩ := hasId_iff.mp hcandidate
      have hperm := orderedPlaces_perm env userId input
        (context.ranking env.toContentEnv input context.outing) (context.work env input places)
      rw [← rankedCandidates_item] at hperm
      obtain ⟨entry, hentry, hitem⟩ := List.mem_map.mp (hperm.mem_iff.mpr hmem)
      obtain ⟨-, hentryId, -⟩ := rankedCandidates_entry hhash hentry
      have hlisted : hasId entry.id ranking.places = true := by
        rw [hentryId, hitem, hid]
        exact hasId_iff.mpr ⟨place, hplace, rfl⟩
      rw [hshape, List.map_map]
      refine List.mem_map.mpr ⟨entry, List.mem_filter.mpr ⟨hentry, hlisted⟩, ?_⟩
      show entry.id = place.googlePlaceId
      rw [hentryId, hitem, hid]
    · right
      refine ⟨?_, Bool.eq_false_iff.mpr hcandidate⟩
      obtain ⟨tail, htail, hsub⟩ := rankNearbyPlaceResults_qualified env userId input places
        (context.ranking env.toContentEnv input context.outing)
      rw [hplaces, htail] at hplace
      cases List.mem_append.mp hplace with
      | inl hpick => exact mem_shownPicks hpick
      | inr hmem => exact absurd (hasId_iff.mpr ⟨place, hsub hmem, rfl⟩) hcandidate
  · intro row hmem
    obtain ⟨place, hplace, -, hid, hname, hparts, hbase, hfinal, hjitter⟩ := hrow row hmem
    refine ⟨place, hplace, hid, hname, hparts, ?_, hfinal, hjitter⟩
    rw [hbase, hparts]
    rfl

/-- The rows of the bar and the cafe. -/
theorem bar_and_cafe_are_explained : ∃ ranking rows,
    RowsExplain aRankingEnv networkList noSignals
      (noSignals.work aRankingEnv networkList barAndCafe) ranking rows :=
  ⟨_, _, debug_scores_explain_the_ranking aRankingEnv unitHash_aContentEnv "ana" networkList
    barAndCafe idsDistinct_barAndCafe noSignals _ _ rfl rfl⟩

end Feca.Places
