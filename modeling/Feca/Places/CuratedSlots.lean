import Feca.Collections.Quota
import Feca.Places.OpenNow

/-! # The slots of a home list

The cap on curated places is a quota, and the loop behind it, which is to fill
the slots the quota leaves, sees the same places once more: those that had been
cut off before are not among them. So a list may stay short while candidates
wait.
-/

namespace Feca.Places

open Collections Content Social

/-! ## Categories apart -/

theorem length_diversify (env : RankingEnv) (rankedOrdered : List GooglePlaceSummary)
    (limit : Rat) :
    (diversifyTopPlacesByCategory env rankedOrdered limit).length =
      if (rankedOrdered.length : Rat) ≤ limit then rankedOrdered.length else capacity limit := by
  unfold diversifyTopPlacesByCategory
  split
  · rfl
  · rename_i hmore
    have hroom : capacity limit ≤ rankedOrdered.length :=
      le_natCast_iff.mp (le_of_not_ge hmore)
    rw [takeVaried_eq_spread, (spread_subperm _ none rankedOrdered).2]
    exact Nat.min_eq_left hroom

/-! ## The cap as a quota -/

section cap

variable {limit : Rat} {isCurated isBoosted : String → Bool}

/-- What passes the cap, whatever the limit. -/
def underCap (isCurated isBoosted : String → Bool) (curatedCount : Nat)
    (places : List GooglePlaceSummary) : List GooglePlaceSummary :=
  underQuota (fun place => isCurated place.googlePlaceId)
    (fun place => isBoosted place.googlePlaceId) MAX_CURATED_SLOTS_IN_TOP curatedCount places

/-- No curated place without a boost stands behind as many curated ones as there may be. -/
def WithinCap (isCurated isBoosted : String → Bool) (places : List GooglePlaceSummary) : Prop :=
  WithinQuota (fun place => isCurated place.googlePlaceId)
    (fun place => isBoosted place.googlePlaceId) MAX_CURATED_SLOTS_IN_TOP places

variable (isCurated isBoosted) in
theorem length_underCap_le (curatedCount : Nat) (places : List GooglePlaceSummary) :
    (underCap isCurated isBoosted curatedCount places).length ≤ places.length :=
  (underQuota_sublist _ _).length_le

variable (isCurated isBoosted) in
theorem length_underCap_iff (places : List GooglePlaceSummary) :
    places.length ≤ (underCap isCurated isBoosted 0 places).length ↔
      WithinCap isCurated isBoosted places :=
  underQuota_length_iff places

/-- The first loop lets pass what the quota does, until the list is full. -/
theorem fillCapped_eq {result places : List GooglePlaceSummary} {curatedCount : Nat}
    (hdistinct : IdsDistinct (result ++ places)) :
    fillCapped limit isCurated isBoosted result curatedCount places =
      result ++ (underCap isCurated isBoosted curatedCount places).take
        (capacity limit - result.length) := by
  induction places generalizing result curatedCount with
  | nil => simp [fillCapped, underCap, underQuota]
  | cons place rest ih =>
    have hnew : hasId place.googlePlaceId result = false := hdistinct.hasId_front
    rw [fillCapped]
    by_cases hfull : isFull limit result = true
    · have hnone : capacity limit - result.length = 0 := by
        have hle := isFull_iff.mp hfull
        omega
      rw [if_pos hfull, hnone, List.take_zero, List.append_nil]
    · have hroom : capacity limit - result.length =
          capacity limit - (result ++ [place]).length + 1 := by
        have hlt := mt isFull_iff.mpr hfull
        rw [List.length_append, List.length_singleton]
        omega
      rw [if_neg hfull, hnew, if_neg Bool.false_ne_true, underCap, underQuota]
      split
      · refine ih (hdistinct.sublist ?_)
        exact (List.Sublist.refl result).append (List.sublist_cons_self place rest)
      · have hlonger : IdsDistinct ((result ++ [place]) ++ rest) := by
          rw [List.append_assoc]
          exact hdistinct
        rw [ih hlonger, hroom, List.take_succ_cons, List.append_assoc]
        rfl

/-- The second loop finds nothing to add, the list being full or having what is not curated. -/
theorem foldl_fillUncurated_eq {result places : List GooglePlaceSummary}
    (h : isFull limit result = true ∨ ∀ place ∈ places,
      isCurated place.googlePlaceId = false → hasId place.googlePlaceId result = true) :
    places.foldl (fillUncurated limit isCurated) result = result := by
  induction places with
  | nil => rfl
  | cons place places ih =>
    have hsame : fillUncurated limit isCurated result place = result := by
      unfold fillUncurated pushNew
      cases h with
      | inl hfull => rw [if_pos hfull]
      | inr hthere =>
        by_cases hcurated : isCurated place.googlePlaceId = true
        · simp [hcurated]
        · simp [hcurated, hthere place List.mem_cons_self (Bool.eq_false_iff.mpr hcurated)]
    rw [List.foldl_cons, hsame]
    exact ih (h.imp_right fun hthere p hp => hthere p (List.mem_cons_of_mem place hp))

end cap

/-- With curations the result is what passes the cap, cut to the limit: nothing is filled up. -/
theorem applyCuratedSlotCap_eq {ordered : List GooglePlaceSummary} {curatedIds : OrderedSet String}
    {limit : Rat} {boosts : OrderedMap String Int} (hdistinct : IdsDistinct ordered)
    (hsome : curatedIds.keys.length ≠ 0) :
    applyCuratedSlotCap ordered curatedIds limit boosts =
      (underCap curatedIds.has (isBoosted boosts) 0 ordered).take (capacity limit) := by
  rw [applyCuratedSlotCap, if_neg hsome, fillCapped_eq (by simpa using hdistinct),
    List.nil_append, List.length_nil, Nat.sub_zero]
  apply foldl_fillUncurated_eq
  by_cases hfew : (underCap curatedIds.has (isBoosted boosts) 0 ordered).length < capacity limit
  · right
    intro place hplace huncurated
    rw [List.take_of_length_le hfew.le]
    exact hasId_iff.mpr ⟨place, mem_underQuota_of_uncounted hplace huncurated, rfl⟩
  · left
    rw [isFull_iff, List.length_take]
    omega

/-! ## A ranking cut before places are set in front of it -/

theorem length_le_of_hasId {front rest : List GooglePlaceSummary} (h : IdsDistinct rest)
    (hall : ∀ place ∈ rest, hasId place.googlePlaceId front = true) :
    rest.length ≤ front.length := by
  have hsub : rest.map (·.googlePlaceId) ⊆ front.map (·.googlePlaceId) := by
    intro id hid
    obtain ⟨place, hplace, rfl⟩ := List.mem_map.mp hid
    obtain ⟨other, hother, heq⟩ := hasId_iff.mp (hall place hplace)
    exact List.mem_map.mpr ⟨other, hother, heq⟩
  have hlength := (List.subperm_of_subset h hsub).length_le
  rwa [List.length_map, List.length_map] at hlength

theorem IdsDistinct.apart {front rest : List GooglePlaceSummary} {place : GooglePlaceSummary}
    (h : IdsDistinct (front ++ rest)) (hplace : place ∈ rest) :
    hasId place.googlePlaceId front = false := by
  obtain ⟨before, after, rfl⟩ := List.append_of_mem hplace
  have hsub : (front ++ place :: after).Sublist (front ++ (before ++ place :: after)) :=
    (List.sublist_append_right before _).append_left front
  exact (h.sublist hsub).hasId_front

theorem hasId_inFront {front rest : List GooglePlaceSummary} {id : String}
    (h : hasId id rest = true) : hasId id (inFront front rest) = true := by
  by_cases hfront : hasId id front = true
  · obtain ⟨place, hplace, hid⟩ := hasId_iff.mp hfront
    exact hasId_iff.mpr ⟨place, List.mem_append_left _ hplace, hid⟩
  · obtain ⟨place, hplace, rfl⟩ := hasId_iff.mp h
    refine hasId_iff.mpr ⟨place, List.mem_append_right _ (List.mem_filter.mpr ⟨hplace, ?_⟩), rfl⟩
    simpa using hfront

/-- As many places are set in front as are taken out behind, so that a cut before
and a cut after leave the same. -/
theorem take_inFront {front rest : List GooglePlaceSummary} {n cut : Nat} (h : IdsDistinct rest)
    (hcut : n ≤ cut) :
    (inFront front (rest.take cut)).take n = (inFront front rest).take n := by
  by_cases hall : rest.length ≤ cut
  · rw [List.take_of_length_le hall]
  have hlength : (rest.take cut).length = cut := List.length_take_of_le (Nat.le_of_not_le hall)
  have hparts := List.length_eq_length_filter_add (l := rest.take cut)
    (fun place => !hasId place.googlePlaceId front)
  have hremoved : ((rest.take cut).filter fun place =>
      !!hasId place.googlePlaceId front).length ≤ front.length := by
    refine length_le_of_hasId (h.sublist (List.filter_sublist.trans (List.take_sublist _ _))) ?_
    intro place hplace
    simpa using (List.mem_filter.mp hplace).2
  unfold inFront
  conv_rhs => rw [← List.take_append_drop cut rest, List.filter_append, ← List.append_assoc]
  refine (List.take_append_of_le_length ?_).symm
  rw [List.length_append]
  omega

/-! ## The places that come up for the slots -/

theorem idsDistinct_pinned (env : RankingEnv) (cityPicks candidates : List GooglePlaceSummary)
    (boosts : OrderedMap String Int) :
    IdsDistinct (buildPinnedCurationPlaces env cityPicks candidates boosts) ∧
      (buildPinnedCurationPlaces env cityPicks candidates boosts).length ≤
        MAX_FORCED_CITY_PICKS := by
  obtain ⟨added, heq, _, hpinned, hcap⟩ := buildPinnedCurationPlaces_spec env cityPicks candidates
    boosts
  rw [heq]
  exact ⟨hpinned, hcap⟩

theorem idsDistinct_qualified {variant : Option NearbyVariant} {context : NearbyRankingContext}
    {places : List GooglePlaceSummary} (h : IdsDistinct places) :
    IdsDistinct (qualified variant context places) := by
  unfold qualified
  split
  · exact h.sublist List.filter_sublist
  · exact h

section slots

variable (env : RankingEnv) (userId : Id) (input : NearbyRankingInput)
  (places : List GooglePlaceSummary) (context : NearbyRankingContext)

/-- The best of the candidates, categories apart. -/
def diversified : List GooglePlaceSummary :=
  diversifyTopPlacesByCategory env
    (orderedPlaces env userId input context (qualified input.variant context places)) input.limit

/-- The places the cap is applied to: what was cut off before does not come up again. -/
def upForSlots : List GooglePlaceSummary :=
  if pinsCurations input.variant then
    sliceTo input.limit (inFront
      (buildPinnedCurationPlaces env context.cityPickPlaces
        (qualified input.variant context places) context.adminBoostByGoogleId)
      (diversified env userId input places context))
  else if context.curatedGoogleIds.keys.length = 0 then
    sliceTo input.limit (diversified env userId input places context)
  else diversified env userId input places context

/-- The candidates as ranked, categories apart where they are more than the limit. -/
def varied : List GooglePlaceSummary :=
  let ordered := orderedPlaces env userId input context (qualified input.variant context places)
  if (ordered.length : Rat) ≤ input.limit then ordered
  else takeVaried env ordered.length none ordered

/-- The whole ranking of a home list, with nothing cut off. -/
def homeOrder : List GooglePlaceSummary :=
  if pinsCurations input.variant then
    inFront
      (buildPinnedCurationPlaces env context.cityPickPlaces
        (qualified input.variant context places) context.adminBoostByGoogleId)
      (varied env userId input places context)
  else varied env userId input places context

/-- How many places of the ranking come up. -/
def homeSlots : Nat :=
  if pinsCurations input.variant ∨ context.curatedGoogleIds.keys.length = 0 then slots input.limit
  else capacity input.limit

variable {places}

theorem homeSlots_le : homeSlots input context ≤ capacity input.limit := by
  unfold homeSlots
  split
  · exact slots_le_capacity input.limit
  · exact Nat.le_refl _

variable (places) in
theorem varied_perm :
    (varied env userId input places context).Perm (qualified input.variant context places) := by
  refine List.Perm.trans ?_ (orderedPlaces_perm env userId input context _)
  unfold varied
  dsimp only
  split
  · exact List.Perm.refl _
  · rw [takeVaried_eq_spread]
    generalize orderedPlaces env userId input context
      (qualified input.variant context places) = ordered
    have hall : (spread (placeVarietyKey env) ordered.length none ordered).length =
        ordered.length :=
      (spread_subperm _ none ordered).2.trans (Nat.min_self _)
    exact (spread_subperm _ none ordered).1.perm_of_length_le (Nat.le_of_eq hall.symm)

variable (places) in
/-- What is diversified is the front of the whole. -/
theorem diversified_eq_take :
    diversified env userId input places context =
      (varied env userId input places context).take (capacity input.limit) := by
  unfold diversified diversifyTopPlacesByCategory varied
  dsimp only
  split
  · rename_i hfew
    have hcast := hfew.trans (Rat.le_ceil (x := input.limit))
    have hle : ((orderedPlaces env userId input context
        (qualified input.variant context places)).length : Int) ≤ input.limit.ceil := by
      exact_mod_cast hcast
    refine (List.take_of_length_le ?_).symm
    unfold capacity
    omega
  · rename_i hmore
    rw [takeVaried_eq_spread, takeVaried_eq_spread]
    exact (take_spread (le_natCast_iff.mp (le_of_not_ge hmore)) none _).symm

theorem idsDistinct_varied (h : IdsDistinct places) :
    IdsDistinct (varied env userId input places context) :=
  (idsDistinct_qualified h).subperm (varied_perm env userId input places context).subperm

theorem idsDistinct_homeOrder (h : IdsDistinct places) :
    IdsDistinct (homeOrder env userId input places context) := by
  unfold homeOrder
  split
  · exact idsDistinct_inFront (idsDistinct_pinned _ _ _ _).1
      (idsDistinct_varied env userId input context h)
  · exact idsDistinct_varied env userId input context h

/-- Every candidate has its place in the ranking. -/
theorem hasId_homeOrder {place : GooglePlaceSummary}
    (h : place ∈ qualified input.variant context places) :
    hasId place.googlePlaceId (homeOrder env userId input places context) = true := by
  have hvaried : place ∈ varied env userId input places context :=
    (varied_perm env userId input places context).mem_iff.mpr h
  unfold homeOrder
  split
  · exact hasId_inFront (hasId_iff.mpr ⟨place, hvaried, rfl⟩)
  · exact hasId_iff.mpr ⟨place, hvaried, rfl⟩

/-- The cuts on the way leave the first places of the whole ranking. -/
theorem upForSlots_eq_take (h : IdsDistinct places) :
    upForSlots env userId input places context =
      (homeOrder env userId input places context).take (homeSlots input context) := by
  unfold upForSlots homeOrder homeSlots sliceTo
  rw [diversified_eq_take]
  have hcut := slots_le_capacity input.limit
  by_cases hpins : pinsCurations input.variant = true
  · rw [if_pos hpins, if_pos hpins, if_pos (Or.inl hpins)]
    exact take_inFront (idsDistinct_varied env userId input context h) hcut
  · rw [if_neg hpins, if_neg hpins]
    by_cases hnone : context.curatedGoogleIds.keys.length = 0
    · rw [if_pos hnone, if_pos (Or.inr hnone), List.take_take, Nat.min_eq_left hcut]
    · rw [if_neg hnone, if_neg (not_or.mpr ⟨hpins, hnone⟩)]

theorem idsDistinct_upForSlots (h : IdsDistinct places) :
    IdsDistinct (upForSlots env userId input places context) := by
  rw [upForSlots_eq_take env userId input context h]
  exact (idsDistinct_homeOrder env userId input context h).sublist (List.take_sublist _ _)

theorem length_upForSlots_le (h : IdsDistinct places) :
    (upForSlots env userId input places context).length ≤ capacity input.limit := by
  rw [upForSlots_eq_take env userId input context h]
  exact (List.length_take_le _ _).trans (homeSlots_le input context)

theorem has_of_keys_empty {set : OrderedSet String} (h : set.keys.length = 0) (id : String) :
    set.has id = false := by
  rw [← Bool.not_eq_true, OrderedMap.has_iff_mem_keys, List.length_eq_zero_iff.mp h]
  exact List.not_mem_nil

/-- Where nothing is curated the cap lets everything pass. -/
theorem withinCap_of_keys_empty {set : OrderedSet String} (isBoosted : String → Bool)
    (h : set.keys.length = 0) (places : List GooglePlaceSummary) :
    WithinCap set.has isBoosted places := by
  intro front place rest _ hcurated
  dsimp only at hcurated
  rw [has_of_keys_empty h] at hcurated
  cases hcurated

variable {env userId input context}

/-- A home list is what the cap lets pass of the places that come up. -/
theorem rankNearbyPlaceResults_eq (hmix : homeMix input.variant = true)
    (hdistinct : IdsDistinct places)
    (hsome : (qualified input.variant context places).length ≠ 0) :
    rankNearbyPlaceResults env userId input places context =
      underCap context.curatedGoogleIds.has (isBoosted context.adminBoostByGoogleId) 0
        (upForSlots env userId input places context) := by
  have hids := idsDistinct_upForSlots env userId input context hdistinct
  have hlength := length_upForSlots_le env userId input context hdistinct
  have hshown : applyCuratedSlotCap
      (withCityPicks env input context (qualified input.variant context places)
        (diversified env userId input places context))
      context.curatedGoogleIds input.limit context.adminBoostByGoogleId =
        underCap context.curatedGoogleIds.has (isBoosted context.adminBoostByGoogleId) 0
          (upForSlots env userId input places context) := by
    by_cases hnone : context.curatedGoogleIds.keys.length = 0
    · have hall := (underQuota_eq_self_iff _).mpr (withinCap_of_keys_empty
        (isBoosted context.adminBoostByGoogleId) hnone (upForSlots env userId input places context))
      rw [underCap, hall, applyCuratedSlotCap, if_pos hnone, upForSlots, withCityPicks]
      by_cases hpins : pinsCurations input.variant = true
      · rw [if_pos hpins, if_pos hpins, applyCityPickSlots_eq (idsDistinct_pinned _ _ _ _).2]
        unfold sliceTo
        rw [List.take_take, Nat.min_self]
      · rw [if_neg hpins, if_neg hpins, if_pos hnone]
    · have hsame : withCityPicks env input context (qualified input.variant context places)
          (diversified env userId input places context) =
            upForSlots env userId input places context := by
        unfold withCityPicks upForSlots
        by_cases hpins : pinsCurations input.variant = true
        · rw [if_pos hpins, if_pos hpins, applyCityPickSlots_eq (idsDistinct_pinned _ _ _ _).2]
        · rw [if_neg hpins, if_neg hpins, if_neg hnone]
      rw [hsame, applyCuratedSlotCap_eq hids hnone]
      exact List.take_of_length_le ((length_underCap_le _ _ _ _).trans hlength)
  unfold rankNearbyPlaceResults
  rw [if_neg hsome, if_pos hmix]
  exact hshown

variable (env userId input places context)

/-- A list with fewer than `limit` places has every candidate that is not curated. -/
def FillsSlots : Prop :=
  ((rankNearbyPlaceResults env userId input places context).length : Rat) < input.limit →
    ∀ place ∈ qualified input.variant context places,
      context.curatedGoogleIds.has place.googlePlaceId = false →
        hasId place.googlePlaceId (rankNearbyPlaceResults env userId input places context) = true

/-- Behind the slots rank only curated places; or the slots are `limit` and all taken, and of
the places in them no curated one without a boost ranks behind five that are curated. -/
def SlotsSuffice : Prop :=
  (∀ place ∈ (homeOrder env userId input places context).drop (homeSlots input context),
    hasId place.googlePlaceId (qualified input.variant context places) = true →
      context.curatedGoogleIds.has place.googlePlaceId = true) ∨
  (input.limit ≤ (homeSlots input context : Rat) ∧
    input.limit ≤ ((homeOrder env userId input places context).length : Rat) ∧
    ∀ front place rest, homeOrder env userId input places context = front ++ place :: rest →
      front.length < homeSlots input context →
      context.curatedGoogleIds.has place.googlePlaceId = true →
        isBoosted context.adminBoostByGoogleId place.googlePlaceId = true ∨
          front.countP (fun before => context.curatedGoogleIds.has before.googlePlaceId) <
            MAX_CURATED_SLOTS_IN_TOP)

variable {env userId input places context}

theorem hasId_underCap {isCurated isBoosted : String → Bool} {curatedCount : Nat} {id : String}
    (huncurated : isCurated id = false) :
    hasId id (underCap isCurated isBoosted curatedCount places) = hasId id places := by
  rw [Bool.eq_iff_iff, hasId_iff, hasId_iff]
  constructor
  · rintro ⟨place, hplace, hid⟩
    exact ⟨place, (underQuota_sublist _ _).mem hplace, hid⟩
  · rintro ⟨place, hplace, hid⟩
    refine ⟨place, mem_underQuota_of_uncounted hplace ?_, hid⟩
    rw [hid]
    exact huncurated

/-- What is not curated comes up as a whole just if none of it ranks behind the slots. -/
theorem uncurated_up_iff {order candidates : List GooglePlaceSummary} (isCurated : String → Bool)
    (n : Nat) (hdistinct : IdsDistinct order)
    (hranked : ∀ place ∈ candidates, hasId place.googlePlaceId order = true) :
    (∀ place ∈ candidates, isCurated place.googlePlaceId = false →
        hasId place.googlePlaceId (order.take n) = true) ↔
      ∀ place ∈ order.drop n, hasId place.googlePlaceId candidates = true →
        isCurated place.googlePlaceId = true := by
  have hparts : IdsDistinct (order.take n ++ order.drop n) := by
    rw [List.take_append_drop]
    exact hdistinct
  constructor
  · intro hup place hplace hcandidate
    obtain ⟨candidate, hmem, hid⟩ := hasId_iff.mp hcandidate
    by_contra huncurated
    have hfront := hup candidate hmem (by rw [hid]; exact Bool.eq_false_iff.mpr huncurated)
    rw [hid, hparts.apart hplace] at hfront
    cases hfront
  · intro hbehind place hplace huncurated
    obtain ⟨listed, hlisted, hid⟩ := hasId_iff.mp (hranked place hplace)
    rw [← List.take_append_drop n order, List.mem_append] at hlisted
    cases hlisted with
    | inl hfront => exact hasId_iff.mpr ⟨listed, hfront, hid⟩
    | inr hback =>
      have hcurated := hbehind listed hback (hasId_iff.mpr ⟨place, hplace, hid.symm⟩)
      rw [hid, huncurated] at hcurated
      cases hcurated

/-- Cut to the slots, a ranking fills the limit under the cap just if it is long enough and
the cap holds in the slots. -/
theorem full_underCap_iff (isCurated isBoosted : String → Bool) (order : List GooglePlaceSummary)
    {limit : Rat} {n : Nat} (hn : n ≤ capacity limit) :
    limit ≤ ((underCap isCurated isBoosted 0 (order.take n)).length : Rat) ↔
      limit ≤ (n : Rat) ∧ limit ≤ (order.length : Rat) ∧
        WithinCap isCurated isBoosted (order.take n) := by
  have hpassed := length_underCap_le isCurated isBoosted 0 (order.take n)
  have hlength : (order.take n).length = min n order.length := List.length_take
  rw [← length_underCap_iff, le_natCast_iff, le_natCast_iff, le_natCast_iff]
  omega

/-- A home list fills its slots just if they suffice for its ranking. -/
theorem fillsSlots_iff (hmix : homeMix input.variant = true) (hdistinct : IdsDistinct places) :
    FillsSlots env userId input places context ↔
      SlotsSuffice env userId input places context := by
  by_cases hnone : (qualified input.variant context places).length = 0
  · have hnil : qualified input.variant context places = [] := List.length_eq_zero_iff.mp hnone
    simp [FillsSlots, SlotsSuffice, hnil, hasId]
  have hup := uncurated_up_iff context.curatedGoogleIds.has (homeSlots input context)
    (idsDistinct_homeOrder env userId input context hdistinct)
    (fun place => hasId_homeOrder env userId input context)
  have hfull := full_underCap_iff context.curatedGoogleIds.has
    (isBoosted context.adminBoostByGoogleId) (homeOrder env userId input places context)
    (homeSlots_le input context)
  unfold FillsSlots SlotsSuffice
  rw [rankNearbyPlaceResults_eq hmix hdistinct hnone,
    upForSlots_eq_take env userId input context hdistinct, ← hup, ← withinQuota_take_iff]
  rw [WithinCap] at hfull
  rw [← hfull]
  constructor
  · intro hfills
    by_cases hshort : ((underCap context.curatedGoogleIds.has
        (isBoosted context.adminBoostByGoogleId) 0
        ((homeOrder env userId input places context).take
          (homeSlots input context))).length : Rat) < input.limit
    · left
      intro place hplace huncurated
      rw [← hasId_underCap huncurated]
      exact hfills hshort place hplace huncurated
    · exact .inr (le_of_not_gt hshort)
  · intro hsuffice hshort place hplace huncurated
    rw [hasId_underCap huncurated]
    exact (hsuffice.resolve_right (not_le_of_gt hshort)) place hplace huncurated

end slots

/-! ## Six curated places and a bar -/

def placeWithId (googlePlaceId : String) : GooglePlaceSummary where
  googlePlaceId := googlePlaceId
  name := "Lugar"
  address := "Calle 1"
  lat := 0
  lng := 0

def sixCuratedAndBar : List GooglePlaceSummary :=
  ["c1", "c2", "c3", "c4", "c5", "c6", "bar"].map placeWithId

/-- The curated places are near, and the bar is not. -/
def sixCurated : NearbyRankingContext where
  baseScore place := if place.googlePlaceId = "bar" then 0 else 100
  hasPersonalization := false
  fecaQualityByGoogleId := .empty
  adminBoostByGoogleId := .empty
  curatedGoogleIds := ["c1", "c2", "c3", "c4", "c5", "c6"].foldl OrderedSet.add .empty
  cityPickPlaces := []

theorem idsDistinct_sixCuratedAndBar : IdsDistinct sixCuratedAndBar := by
  unfold IdsDistinct
  decide

/-- With a slot for each the bar comes up, and is listed. -/
theorem bar_gets_the_seventh_slot :
    FillsSlots aRankingEnv "ana" { lat := 0, lng := 0, limit := 7, variant := some .homeNearby }
      sixCuratedAndBar sixCurated :=
  (fillsSlots_iff (by decide) idsDistinct_sixCuratedAndBar).mpr (.inl (by decide +kernel))

/-- Of six slots five are taken, and the bar does not get the last. -/
theorem bar_is_left_out :
    homeMix (some .homeNearby) = true ∧ IdsDistinct sixCuratedAndBar ∧
      ¬ FillsSlots aRankingEnv "ana" { lat := 0, lng := 0, limit := 6, variant := some .homeNearby }
        sixCuratedAndBar sixCurated := by
  refine ⟨by decide, idsDistinct_sixCuratedAndBar, ?_⟩
  intro hfills
  have hbar := hfills (by decide +kernel) (placeWithId "bar") (by decide +kernel) (by decide)
  exact absurd hbar (by decide +kernel)

end Feca.Places
