import Feca.Collections.Selection
import Feca.Content.FeedPaging
import Feca.Places.Summary
import Mathlib.Algebra.Order.Field.Basic
import Mathlib.Tactic.Linarith

/-! # Stored places near a point

`PlacesRepository` asks the database for the places of a bounding box, and sorts
those within the radius by their distance.
-/

namespace Feca.Places

open Collections Content Paging Social

structure NearbyEnv extends PlacesEnv where
  /-- The cosine of an angle in degrees. -/
  cosDegrees : Rat → Rat
  /-- `equals` with `mode: "insensitive"`. -/
  equalsInsensitive : String → String → Bool

/-! ## Distances -/

def METERS_PER_DEGREE_LAT : Rat := 111320

structure GeoBounds where
  minLat : Rat
  maxLat : Rat
  minLng : Rat
  maxLng : Rat
  deriving DecidableEq, Repr

structure GeoCoordinate where
  lat : Rat
  lng : Rat
  deriving DecidableEq, Repr

/-- A coordinate, and what is there. -/
structure Located (α : Type) extends GeoCoordinate where
  item : α
  deriving DecidableEq, Repr

structure Distanced (α : Type) extends Located α where
  distanceMeters : Rat
  deriving DecidableEq, Repr

def geoBoundsFromRadiusMeters (env : NearbyEnv) (lat lng radiusMeters : Rat) : GeoBounds :=
  let latDelta := radiusMeters / METERS_PER_DEGREE_LAT
  let lngDelta := radiusMeters / (METERS_PER_DEGREE_LAT * max (env.cosDegrees lat) (1 / 1000000))
  { minLat := lat - latDelta
    maxLat := lat + latDelta
    minLng := lng - lngDelta
    maxLng := lng + lngDelta }

def GeoBounds.contains (bounds : GeoBounds) (point : GeoCoordinate) : Bool :=
  decide (bounds.minLat ≤ point.lat) && decide (point.lat ≤ bounds.maxLat) &&
    decide (bounds.minLng ≤ point.lng) && decide (point.lng ≤ bounds.maxLng)

section distances

variable {α : Type}

def withDistance (env : NearbyEnv) (originLat originLng : Rat) (item : Located α) : Distanced α :=
  { item with distanceMeters := env.distanceInMeters originLat originLng item.lat item.lng }

def nearerOrEqual (a b : Distanced α) : Prop := a.distanceMeters ≤ b.distanceMeters

instance : DecidableRel (nearerOrEqual (α := α)) := fun a b =>
  inferInstanceAs (Decidable (a.distanceMeters ≤ b.distanceMeters))

def filterSortByDistance (env : NearbyEnv) (originLat originLng : Rat) (items : List (Located α))
    (radiusMeters : Rat) (limit : Nat) : List (Distanced α) :=
  (((items.map (withDistance env originLat originLng)).filter fun item =>
    decide (item.distanceMeters ≤ radiusMeters)).insertionSort nearerOrEqual).take limit

end distances

def nearbySqlTakeLimit (resultLimit : Nat) (cap : Nat := 150) : Nat :=
  min (max (resultLimit * 8) 24) cap

/-! ## The repository -/

/-- Both coordinates, unless one is missing. -/
def coordinate (place : PlaceRow) : Option GeoCoordinate :=
  place.lat.bind fun lat => place.lng.map fun lng => { lat, lng }

def located (place : PlaceRow) : Option (Located PlaceRow) :=
  (coordinate place).map fun point => { point with item := place }

def placeRows (s : ContentDb) : List PlaceRow := s.places.rows.map s.placeRow

def visibleInAppWhere (place : PlaceRow) : Bool := place.hiddenFromApp == false

/-- No key of `extra` is one of the box. -/
def buildNearbyGeoWhere (bounds : GeoBounds) (extra : PlaceRow → Bool) (place : PlaceRow) : Bool :=
  visibleInAppWhere place && (coordinate place).any bounds.contains && extra place

/-- `orderBy: { updatedAt: "desc" }`. -/
def updatedAfter (a b : PlaceRow) : Prop := b.updatedAt ≤ a.updatedAt

instance : DecidableRel updatedAfter := fun a b =>
  inferInstanceAs (Decidable (b.updatedAt ≤ a.updatedAt))

/-- The places of the box, in the order in which the database gives them out. -/
def placesOfBox (env : NearbyEnv) (s : ContentDb) (extra : PlaceRow → Bool)
    (lat lng radiusMeters : Rat) : List PlaceRow :=
  ((placeRows s).filter
    (buildNearbyGeoWhere (geoBoundsFromRadiusMeters env lat lng radiusMeters) extra)).insertionSort
      updatedAfter

/-- A nearby listing with the further condition `extra`. -/
def listNearbyWhere (env : NearbyEnv) (s : ContentDb) (extra : PlaceRow → Bool) (lat lng : Rat)
    (radiusMeters : Rat) (limit : Nat) : List (Distanced PlaceRow) :=
  filterSortByDistance env lat lng
    (((placesOfBox env s extra lat lng radiusMeters).take (nearbySqlTakeLimit limit)).filterMap located)
    radiusMeters limit

def DEFAULT_NEARBY_RADIUS_METERS : Rat := 5000

/-- In the city, where one is given. -/
def inCity (env : NearbyEnv) (city : Option String) (place : PlaceRow) : Bool :=
  (city.bind orNull).all (env.equalsInsensitive place.city)

def listNearbyPlaces (env : NearbyEnv) (s : ContentDb) (lat lng : Rat)
    (city : Option String := none) (limit : Nat := 10)
    (radiusMeters : Rat := DEFAULT_NEARBY_RADIUS_METERS) : List (Distanced PlaceRow) :=
  listNearbyWhere env s (inCity env city) lat lng radiusMeters limit

/-- Somebody would return, or gave four stars. -/
def hasPositiveVisit (s : ContentDb) (place : PlaceRow) : Bool :=
  s.visits.rows.any fun visit => visit.placeId == place.id &&
    (visit.wouldReturn == some .yes || decide (visit.rating ≥ 4))

def listNearbyPlacesWithPositiveVisits (env : NearbyEnv) (s : ContentDb) (lat lng : Rat)
    (radiusMeters : Rat) (limit : Nat := 20) : List (Distanced PlaceRow) :=
  listNearbyWhere env s (hasPositiveVisit s) lat lng radiusMeters limit

/-- Trimmed, in lower case, each once, and at most twelve. -/
def normalizeCategories (env : NearbyEnv) (categories : List String) : List String :=
  (distinctIds ((categories.map fun c => env.toLowerCase (trim c)).filter (· ≠ ""))).take 12

/-- `notIn` holds of no place without a Google id. -/
def matchesCategories (normalized excludeGooglePlaceIds : List String) (place : PlaceRow) : Bool :=
  (excludeGooglePlaceIds.length == 0 ||
    place.sourcePlaceId.any fun id => !excludeGooglePlaceIds.contains id) &&
  normalized.any place.categories.contains

def listNearbyPlacesMatchingCategories (env : NearbyEnv) (s : ContentDb) (lat lng : Rat)
    (categories excludeGooglePlaceIds : List String) (radiusMeters : Rat) (limit : Nat := 20) :
    List (Distanced PlaceRow) :=
  let normalized := normalizeCategories env categories
  if normalized.length = 0 then []
  else listNearbyWhere env s (matchesCategories normalized excludeGooglePlaceIds) lat lng
    radiusMeters limit

/-! ## The full scan -/

/-- All visible places within the radius that satisfy `extra`. -/
def placesWithin (env : NearbyEnv) (s : ContentDb) (extra : PlaceRow → Bool)
    (lat lng radiusMeters : Rat) : List (Distanced PlaceRow) :=
  (((placeRows s).filter fun place => visibleInAppWhere place && extra place).filterMap
    fun place => (located place).map (withDistance env lat lng)).filter fun place =>
      decide (place.distanceMeters ≤ radiusMeters)

/-- The first `limit` of them, by distance. -/
def nearestPlaces (env : NearbyEnv) (s : ContentDb) (extra : PlaceRow → Bool)
    (lat lng radiusMeters : Rat) (limit : Nat) : List (Distanced PlaceRow) :=
  ((placesWithin env s extra lat lng radiusMeters).insertionSort nearerOrEqual).take limit

/-! ## What the cap cuts off -/

variable {env : NearbyEnv} {s : ContentDb} {extra : PlaceRow → Bool} {lat lng radiusMeters : Rat}
  {limit : Nat}

/-- The box reaches as far as the radius. -/
def BoxContainsRadius (env : NearbyEnv) (lat lng radiusMeters : Rat) : Prop :=
  ∀ point : GeoCoordinate, env.distanceInMeters lat lng point.lat point.lng ≤ radiusMeters →
    (geoBoundsFromRadiusMeters env lat lng radiusMeters).contains point = true

/-- No two of the places within the radius are equally far. -/
def DistinctDistances (env : NearbyEnv) (s : ContentDb) (extra : PlaceRow → Bool)
    (lat lng radiusMeters : Rat) : Prop :=
  (placesWithin env s extra lat lng radiusMeters).Pairwise fun a b =>
    a.distanceMeters ≠ b.distanceMeters

/-- How many places within the radius are nearer. -/
def nearerPlaces (env : NearbyEnv) (s : ContentDb) (extra : PlaceRow → Bool)
    (lat lng radiusMeters : Rat) (place : Distanced PlaceRow) : Nat :=
  ((placesWithin env s extra lat lng radiusMeters).filter fun other =>
    decide (other.distanceMeters < place.distanceMeters)).length

/-- How many places of the box the database gives out before it, by their last update. -/
def updateRank (env : NearbyEnv) (s : ContentDb) (extra : PlaceRow → Bool)
    (lat lng radiusMeters : Rat) (place : PlaceRow) : Nat :=
  (placesOfBox env s extra lat lng radiusMeters).idxOf place

/-- None of the `limit` nearest places is so long without an update that the cap
cuts it off. -/
def NearestAreFresh (env : NearbyEnv) (s : ContentDb) (extra : PlaceRow → Bool)
    (lat lng radiusMeters : Rat) (limit : Nat) : Prop :=
  ∀ place ∈ placesWithin env s extra lat lng radiusMeters,
    nearerPlaces env s extra lat lng radiusMeters place < limit →
      updateRank env s extra lat lng radiusMeters place.item < nearbySqlTakeLimit limit

instance : Decidable (DistinctDistances env s extra lat lng radiusMeters) :=
  inferInstanceAs (Decidable (List.Pairwise _ _))

instance : Decidable (NearestAreFresh env s extra lat lng radiusMeters limit) :=
  inferInstanceAs (Decidable (∀ place ∈ placesWithin env s extra lat lng radiusMeters, _))

/-- A place with its distance, where it lies within the radius. -/
def within (env : NearbyEnv) (lat lng radiusMeters : Rat) (place : PlaceRow) :
    Option (Distanced PlaceRow) :=
  ((located place).map (withDistance env lat lng)).filter fun place =>
    decide (place.distanceMeters ≤ radiusMeters)

theorem within_some {place : PlaceRow} {found : Distanced PlaceRow}
    (h : within env lat lng radiusMeters place = some found) : found.item = place ∧
      coordinate place = some found.toGeoCoordinate ∧
      env.distanceInMeters lat lng found.lat found.lng ≤ radiusMeters := by
  obtain ⟨hmap, hle⟩ := Option.filter_eq_some_iff.mp h
  obtain ⟨item, hitem, rfl⟩ := Option.map_eq_some_iff.mp hmap
  obtain ⟨point, hpoint, rfl⟩ := Option.map_eq_some_iff.mp hitem
  exact ⟨rfl, hpoint, of_decide_eq_true hle⟩

theorem filterMap_within (places : List PlaceRow) :
    (((places.filterMap located).map (withDistance env lat lng)).filter fun item =>
      decide (item.distanceMeters ≤ radiusMeters)) =
        places.filterMap (within env lat lng radiusMeters) := by
  rw [List.map_filterMap, List.filter_filterMap]
  rfl

theorem placesWithin_eq : placesWithin env s extra lat lng radiusMeters =
    ((placeRows s).filter fun place => visibleInAppWhere place && extra place).filterMap
      (within env lat lng radiusMeters) := by
  unfold placesWithin
  rw [List.filter_filterMap]
  rfl

/-- The box loses nothing within the radius. -/
theorem placesOfBox_perm (hbox : BoxContainsRadius env lat lng radiusMeters) :
    ((placesOfBox env s extra lat lng radiusMeters).filterMap
      (within env lat lng radiusMeters)).Perm (placesWithin env s extra lat lng radiusMeters) := by
  have hkeeps : ((placeRows s).filter (buildNearbyGeoWhere
      (geoBoundsFromRadiusMeters env lat lng radiusMeters) extra)).filterMap
        (within env lat lng radiusMeters) = placesWithin env s extra lat lng radiusMeters := by
    rw [placesWithin_eq, List.filterMap_filter, List.filterMap_filter]
    refine List.filterMap_congr fun place _ => ?_
    cases hwithin : within env lat lng radiusMeters place with
    | none => simp
    | some found =>
        obtain ⟨-, hpoint, hle⟩ := within_some hwithin
        have hin : (coordinate place).any
            (geoBoundsFromRadiusMeters env lat lng radiusMeters).contains = true := by
          rw [hpoint]
          exact hbox _ hle
        rw [buildNearbyGeoWhere, hin, Bool.and_true]
  rw [← hkeeps]
  exact (List.perm_insertionSort _ _).filterMap _

theorem nearerOrEqual_total (a b : Distanced PlaceRow) : nearerOrEqual a b ∨ nearerOrEqual b a :=
  le_total a.distanceMeters b.distanceMeters

theorem nearerOrEqual_trans (a b c : Distanced PlaceRow) (hab : nearerOrEqual a b)
    (hbc : nearerOrEqual b c) : nearerOrEqual a c := le_trans hab hbc

/-- By distance, the places within the radius form an increasing list. -/
theorem sorted_placesWithin (hdistinct : DistinctDistances env s extra lat lng radiusMeters) :
    ((placesWithin env s extra lat lng radiusMeters).insertionSort nearerOrEqual).Pairwise
      fun a b => a.distanceMeters < b.distanceMeters := by
  have htotal : Std.Total (nearerOrEqual (α := PlaceRow)) := ⟨nearerOrEqual_total⟩
  have htrans : IsTrans _ (nearerOrEqual (α := PlaceRow)) := ⟨nearerOrEqual_trans⟩
  have hne : ((placesWithin env s extra lat lng radiusMeters).insertionSort nearerOrEqual).Pairwise
      fun a b => a.distanceMeters ≠ b.distanceMeters :=
    hdistinct.perm (List.perm_insertionSort _ _).symm fun h => Ne.symm h
  refine ((List.pairwise_insertionSort nearerOrEqual _).and hne).imp fun hab => ?_
  exact lt_of_le_of_ne hab.1 hab.2

/-- The listing is the full scan exactly when the cap spares the nearest places. -/
theorem listNearbyWhere_eq_iff (hbox : BoxContainsRadius env lat lng radiusMeters)
    (hdistinct : DistinctDistances env s extra lat lng radiusMeters) :
    listNearbyWhere env s extra lat lng radiusMeters limit =
        nearestPlaces env s extra lat lng radiusMeters limit ↔
      NearestAreFresh env s extra lat lng radiusMeters limit := by
  set box := placesOfBox env s extra lat lng radiusMeters with hboxDef
  set all := placesWithin env s extra lat lng radiusMeters with hall
  have hperm : (box.filterMap (within env lat lng radiusMeters)).Perm all := placesOfBox_perm hbox
  have hsorted := sorted_placesWithin hdistinct
  have hapart : ∀ a ∈ all, ∀ b ∈ all, nearerOrEqual a b → nearerOrEqual b a → a = b := by
    intro a ha b hb hab hba
    by_contra hne
    have hsymm : Std.Symm fun a b : Distanced PlaceRow => a.distanceMeters ≠ b.distanceMeters :=
      ⟨fun _ _ h => Ne.symm h⟩
    exact hdistinct.forall ha hb hne (le_antisymm hab hba)
  have hsub : (((box.take (nearbySqlTakeLimit limit)).filterMap
      (within env lat lng radiusMeters)).insertionSort nearerOrEqual).Sublist
        (all.insertionSort nearerOrEqual) := by
    rw [← insertionSort_eq_of_perm nearerOrEqual_total nearerOrEqual_trans hperm hapart]
    exact insertionSort_sublist nearerOrEqual_total nearerOrEqual_trans
      ((List.take_sublist _ _).filterMap _)
  have hnodup : (all.insertionSort nearerOrEqual).Nodup :=
    hsorted.imp fun hab => ne_of_apply_ne Distanced.distanceMeters hab.ne
  -- A place within the radius is taken when its row is among the first of the box.
  have htaken : ∀ place ∈ all, place ∈ (box.take (nearbySqlTakeLimit limit)).filterMap
      (within env lat lng radiusMeters) ↔
        updateRank env s extra lat lng radiusMeters place.item < nearbySqlTakeLimit limit := by
    intro place hplace
    obtain ⟨row, hrow, hwithin⟩ := List.mem_filterMap.mp (hperm.mem_iff.mpr hplace)
    have hitem : place.item = row := (within_some hwithin).1
    rw [updateRank, ← hboxDef, hitem, ← List.mem_take_iff_idxOf_lt hrow]
    constructor
    · intro htake
      obtain ⟨row', hrow', hwithin'⟩ := List.mem_filterMap.mp htake
      rw [← hitem, (within_some hwithin').1]
      exact hrow'
    · intro htake
      exact List.mem_filterMap.mpr ⟨row, htake, hwithin⟩
  have hnearest : ∀ place ∈ all, place ∈ (all.insertionSort nearerOrEqual).take limit ↔
      nearerPlaces env s extra lat lng radiusMeters place < limit := by
    intro place hplace
    rw [mem_take_iff_length_filter_lt hsorted ((List.mem_insertionSort _).mpr hplace), nearerPlaces,
      ← hall, ((List.perm_insertionSort nearerOrEqual all).filter _).length_eq]
  unfold listNearbyWhere filterSortByDistance nearestPlaces NearestAreFresh
  rw [filterMap_within, ← hboxDef, ← hall, take_eq_iff_subset hnodup hsub]
  constructor
  · intro h place hplace hnear
    exact (htaken place hplace).mp
      ((List.mem_insertionSort _).mp (h place ((hnearest place hplace).mpr hnear)))
  · intro h place hplace
    have hmem : place ∈ all := (List.mem_insertionSort _).mp (List.mem_of_mem_take hplace)
    exact (List.mem_insertionSort _).mpr
      ((htaken place hmem).mpr (h place hmem ((hnearest place hmem).mp hplace)))

/-- Without categories nothing is listed, and nothing matches. -/
theorem listNearbyPlacesMatchingCategories_eq (categories excludeGooglePlaceIds : List String) :
    listNearbyPlacesMatchingCategories env s lat lng categories excludeGooglePlaceIds radiusMeters
      limit = listNearbyWhere env s
        (matchesCategories (normalizeCategories env categories) excludeGooglePlaceIds) lat lng
        radiusMeters limit := by
  unfold listNearbyPlacesMatchingCategories
  dsimp only
  split
  · rename_i hempty
    have hnone : ∀ place, buildNearbyGeoWhere (geoBoundsFromRadiusMeters env lat lng radiusMeters)
        (matchesCategories (normalizeCategories env categories) excludeGooglePlaceIds) place =
          false := by
      intro place
      rw [buildNearbyGeoWhere, matchesCategories, List.eq_nil_of_length_eq_zero hempty,
        List.any_nil, Bool.and_false, Bool.and_false]
    have hbox : placesOfBox env s
        (matchesCategories (normalizeCategories env categories) excludeGooglePlaceIds) lat lng
        radiusMeters = [] := by
      rw [placesOfBox, List.filter_eq_nil_iff.mpr fun place _ => by rw [hnone]; exact
        Bool.false_ne_true]
      rfl
    rw [listNearbyWhere, hbox, List.take_nil, List.filterMap_nil, filterSortByDistance]
    exact List.take_nil.symm
  · rfl

/-- A nearby listing is the full scan exactly when none of its `limit` nearest
places is so long without an update that the cap cuts it off. -/
theorem nearby_prefilter_exact_iff (env : NearbyEnv) (s : ContentDb) (lat lng radiusMeters : Rat)
    (limit : Nat) (hbox : BoxContainsRadius env lat lng radiusMeters) :
    (∀ city, DistinctDistances env s (inCity env city) lat lng radiusMeters →
      (listNearbyPlaces env s lat lng city limit radiusMeters =
          nearestPlaces env s (inCity env city) lat lng radiusMeters limit ↔
        NearestAreFresh env s (inCity env city) lat lng radiusMeters limit)) ∧
    (DistinctDistances env s (hasPositiveVisit s) lat lng radiusMeters →
      (listNearbyPlacesWithPositiveVisits env s lat lng radiusMeters limit =
          nearestPlaces env s (hasPositiveVisit s) lat lng radiusMeters limit ↔
        NearestAreFresh env s (hasPositiveVisit s) lat lng radiusMeters limit)) ∧
    ∀ categories exclude,
      let matching := matchesCategories (normalizeCategories env categories) exclude
      DistinctDistances env s matching lat lng radiusMeters →
        (listNearbyPlacesMatchingCategories env s lat lng categories exclude radiusMeters limit =
            nearestPlaces env s matching lat lng radiusMeters limit ↔
          NearestAreFresh env s matching lat lng radiusMeters limit) := by
  refine ⟨fun city hdistinct => ?_, fun hdistinct => ?_, fun categories exclude => ?_⟩
  · exact listNearbyWhere_eq_iff hbox hdistinct
  · exact listNearbyWhere_eq_iff hbox hdistinct
  · intro matching hdistinct
    rw [listNearbyPlacesMatchingCategories_eq]
    exact listNearbyWhere_eq_iff hbox hdistinct

/-! ## A street of cafés -/

/-- A flat world, in which distances add up along the axes. -/
def aFlatEnv : NearbyEnv :=
  { aContentEnv with
    relativeTimeFormat := fun _ _ => "hoy"
    distanceInMeters := fun lat lng lat' lng' => METERS_PER_DEGREE_LAT * (|lat - lat'| + |lng - lng'|)
    cosDegrees := fun _ => 1
    equalsInsensitive := fun a b => a == b }

theorem boxContainsRadius_aFlatEnv (lat lng radiusMeters : Rat) :
    BoxContainsRadius aFlatEnv lat lng radiusMeters := by
  intro point hle
  have hmeters : (0 : Rat) < METERS_PER_DEGREE_LAT := by decide
  have hsum : |lat - point.lat| + |lng - point.lng| ≤ radiusMeters / METERS_PER_DEGREE_LAT := by
    rw [le_div_iff₀ hmeters, mul_comm]
    exact hle
  have hlat := abs_le.mp ((le_add_of_nonneg_right (abs_nonneg _)).trans hsum)
  have hlng := abs_le.mp ((le_add_of_nonneg_left (abs_nonneg _)).trans hsum)
  have hcos : max (aFlatEnv.cosDegrees lat) (1 / 1000000) = 1 := by
    show max (1 : Rat) (1 / 1000000) = 1
    exact max_eq_left (by norm_num)
  unfold geoBoundsFromRadiusMeters GeoBounds.contains
  rw [hcos, mul_one]
  simp only [Bool.and_eq_true, decide_eq_true_eq]
  refine ⟨⟨⟨?_, ?_⟩, ?_⟩, ?_⟩ <;> linarith

def aCafe (i : Nat) : Place where
  id := String.ofList (List.replicate (i + 1) 'c')
  name := "Café"
  address := "San Martín 100"
  city := "Rosario"
  lat := some (i + 1)
  lng := some 0

/-- Going north, each café was updated after the one before. -/
def aStreet (n : Nat) : ContentDb where
  toSocialDb := .ofUsers .empty .empty .empty .empty
    { rows := (List.range n).map aCafe
      distinct := by
        rw [List.pairwise_map]
        refine List.nodup_range.imp fun {i j} hij => ?_
        have hids : (aCafe i).id ≠ (aCafe j).id := by
          intro hid
          have hlength := congrArg (fun id => id.toList.length) hid
          simp [aCafe] at hlength
          exact hij hlength
        simpa [Relational.conflicts] using hids }
  tastePreferenceIds _ := []
  isEditor _ := false
  placeColumns id := { updatedAt := id.length }
  visits := .empty
  saves := .empty
  diaries := .empty
  diaryPlaces := .empty
  user_id := by simp [SocialDb.ofUsers]
  place_source := by
    intro _ _ _ _ _ h
    cases h
  visit_place := by simp
  visit_user := by simp
  save_user := by simp
  diary_creator := by simp
  entry_diary := no_entry_diary

/-- Of three cafés the nearest is listed. -/
theorem three_cafes_are_sorted :
    listNearbyPlaces aFlatEnv (aStreet 3) 0 0 none 1 1000000 =
      nearestPlaces aFlatEnv (aStreet 3) (inCity aFlatEnv none) 0 0 1000000 1 :=
  ((nearby_prefilter_exact_iff aFlatEnv (aStreet 3) 0 0 1000000 1
    (boxContainsRadius_aFlatEnv 0 0 1000000)).1 none (by decide +kernel)).mpr (by decide +kernel)

/-- Of twenty-five, the second. -/
theorem nearest_cafe_is_cut_off :
    BoxContainsRadius aFlatEnv 0 0 5000000 ∧
    DistinctDistances aFlatEnv (aStreet 25) (inCity aFlatEnv none) 0 0 5000000 ∧
    listNearbyPlaces aFlatEnv (aStreet 25) 0 0 none 1 5000000 ≠
      nearestPlaces aFlatEnv (aStreet 25) (inCity aFlatEnv none) 0 0 5000000 1 :=
  ⟨boxContainsRadius_aFlatEnv 0 0 5000000, by decide +kernel, by decide +kernel⟩

end Feca.Places
