import Feca.Collections.Selection
import Feca.Places.CuratedSlots

/-! # Pinned places come first

The cap on curated places counts those that are pinned too, but no more are
pinned than it lets pass: so the pinned places stand in front of every home list,
and behind them the others in the order they had.
-/

namespace Feca.Places

open Collections Content Social

/-! ## What is pinned -/

/-- Each id once, at its first position. -/
def firstById (places : List GooglePlaceSummary) : List GooglePlaceSummary :=
  places.foldl pushNew []

/-- The pinned places: city picks first, then the boosted candidates, those with a
larger boost before the others; each id once, and four at most. -/
structure PinnedInOrder (cityPicks candidates : List GooglePlaceSummary)
    (boosts : OrderedMap String Int) (pinned boosted : List GooglePlaceSummary) : Prop where
  firstFour : pinned = (firstById (cityPicks ++ boosted)).take MAX_FORCED_CITY_PICKS
  positive : boosted.Perm (candidates.filter fun place => decide (boostOf boosts place > 0))
  decreasing : boosted.Pairwise fun a b => boostOf boosts b ≤ boostOf boosts a

theorem pinnedInOrder (env : RankingEnv) (cityPicks candidates : List GooglePlaceSummary)
    (boosts : OrderedMap String Int) :
    PinnedInOrder cityPicks candidates boosts
      (buildPinnedCurationPlaces env cityPicks candidates boosts)
      (boostedCandidates env boosts candidates) where
  firstFour := by
    have hpicks : (pinnedPicks cityPicks) = cityPicks.foldl pinPlace [] := rfl
    rw [buildPinnedCurationPlaces, hpicks, ← List.foldl_append, firstById]
    exact foldl_pinPlace_eq_take (Nat.zero_le _) _
  positive := List.perm_insertionSort _ _
  decreasing := by
    apply pairwise_insertionSort_of
    · intro a b hmore
      unfold moreBoosted at hmore
      omega
    · intro a b hnot
      unfold moreBoosted at hnot
      omega
    · intro a b c hab hbc
      exact hbc.trans hab

/-! ## The slots behind -/

section slots

variable {env : RankingEnv} {userId : Id} {input : NearbyRankingInput}
  {places : List GooglePlaceSummary} {context : NearbyRankingContext}

theorem homeMix_of_pins (h : pinsCurations input.variant = true) :
    homeMix input.variant = true := by
  unfold pinsCurations at h
  exact (Bool.and_eq_true_iff.mp h).1

variable (env userId input places context) in
/-- The curated places that are pinned in a ranking. -/
def pinnedPlaces : List GooglePlaceSummary :=
  buildPinnedCurationPlaces env context.cityPickPlaces
    (qualified input.variant context places) context.adminBoostByGoogleId

variable (env userId input places context) in
/-- The diversified places that are not pinned. -/
def unpinned : List GooglePlaceSummary :=
  (diversified env userId input places context).filter fun place =>
    !hasId place.googlePlaceId (pinnedPlaces env input places context)

variable (env userId places context) in
/-- Behind the pinned places come up the others, as many as there are slots left. -/
theorem upForSlots_eq (hpins : pinsCurations input.variant = true) :
    upForSlots env userId input places context =
      sliceTo input.limit (pinnedPlaces env input places context) ++
        (unpinned env userId input places context).take
          (slots input.limit - (pinnedPlaces env input places context).length) := by
  rw [upForSlots, if_pos hpins, ← pinnedPlaces, inFront, ← unpinned, sliceTo, sliceTo,
    List.take_append]

/-- Fewer places are pinned than the cap lets pass. -/
theorem length_pinnedPlaces_le :
    (sliceTo input.limit (pinnedPlaces env input places context)).length ≤
      MAX_CURATED_SLOTS_IN_TOP := by
  have hpinned := (idsDistinct_pinned env context.cityPickPlaces
    (qualified input.variant context places) context.adminBoostByGoogleId).2
  have hcut := (List.take_sublist (slots input.limit)
    (pinnedPlaces env input places context)).length_le
  exact (hcut.trans hpinned).trans (by decide)

variable (env userId input places context) in
/-- The others that a home list has behind the pinned places: those that get a slot and
that the cap, which has counted the pinned ones, lets pass. -/
def behindPinned : List GooglePlaceSummary :=
  underCap context.curatedGoogleIds.has (isBoosted context.adminBoostByGoogleId)
    ((sliceTo input.limit (pinnedPlaces env input places context)).countP fun place =>
      context.curatedGoogleIds.has place.googlePlaceId)
    ((unpinned env userId input places context).take
      (slots input.limit - (pinnedPlaces env input places context).length))

/-- A home list begins with the pinned places, cut at the limit, and goes on in the
diversified order; of the curated places without a boost it has five at most. -/
theorem home_list_pins_first (env : RankingEnv) (userId : Id) (input : NearbyRankingInput)
    (places : List GooglePlaceSummary) (context : NearbyRankingContext)
    (hpins : pinsCurations input.variant = true) (hdistinct : IdsDistinct places)
    (hsome : qualified input.variant context places ≠ []) :
    (∃ boosted, PinnedInOrder context.cityPickPlaces (qualified input.variant context places)
      context.adminBoostByGoogleId (pinnedPlaces env input places context) boosted) ∧
    rankNearbyPlaceResults env userId input places context =
      sliceTo input.limit (pinnedPlaces env input places context) ++
        behindPinned env userId input places context ∧
    (behindPinned env userId input places context).Sublist
      (unpinned env userId input places context) ∧
    (rankNearbyPlaceResults env userId input places context).countP (fun place =>
        context.curatedGoogleIds.has place.googlePlaceId &&
          !isBoosted context.adminBoostByGoogleId place.googlePlaceId) ≤
      MAX_CURATED_SLOTS_IN_TOP := by
  have hranked : rankNearbyPlaceResults env userId input places context =
      underCap context.curatedGoogleIds.has (isBoosted context.adminBoostByGoogleId) 0
        (upForSlots env userId input places context) :=
    rankNearbyPlaceResults_eq (homeMix_of_pins hpins) hdistinct
      (mt List.length_eq_zero_iff.mp hsome)
  have hbehind : (behindPinned env userId input places context).Sublist
      (unpinned env userId input places context) :=
    (underQuota_sublist _ _).trans (List.take_sublist _ _)
  refine ⟨⟨_, pinnedInOrder env _ _ _⟩, ?_, hbehind, ?_⟩
  · rw [hranked, upForSlots_eq env userId places context hpins, underCap, underQuota_append,
      underQuota_eq_self_of_length length_pinnedPlaces_le, Nat.zero_add]
    rfl
  · rw [hranked]
    exact countP_underQuota_le 0 _

end slots

/-! ## A pick and a boost -/

/-- The city has a pick of its own, and the last of the curated places has a boost. -/
def pickAndBoost : NearbyRankingContext :=
  { sixCurated with
    adminBoostByGoogleId := OrderedMap.empty.set "c6" 5
    cityPickPlaces := [placeWithId "pick", placeWithId "pick"] }

def sevenNearby : NearbyRankingInput where
  lat := 0
  lng := 0
  limit := 7
  variant := some .homeNearby

theorem pick_and_boost_come_first :
    (pinnedPlaces aRankingEnv sevenNearby sixCuratedAndBar pickAndBoost).map (·.googlePlaceId) =
        ["pick", "c6"] ∧
      rankNearbyPlaceResults aRankingEnv "ana" sevenNearby sixCuratedAndBar pickAndBoost =
        sliceTo 7 (pinnedPlaces aRankingEnv sevenNearby sixCuratedAndBar pickAndBoost) ++
          behindPinned aRankingEnv "ana" sevenNearby sixCuratedAndBar pickAndBoost ∧
      (behindPinned aRankingEnv "ana" sevenNearby sixCuratedAndBar pickAndBoost).map
        (·.googlePlaceId) = ["c1", "c2", "c3", "c4"] := by
  have hspec := home_list_pins_first aRankingEnv "ana" sevenNearby sixCuratedAndBar pickAndBoost
    (by decide) idsDistinct_sixCuratedAndBar (by decide)
  exact ⟨by decide +kernel, hspec.2.1, by decide +kernel⟩

end Feca.Places
