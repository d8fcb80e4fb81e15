import Feca.Geometry.Sphere
import Mathlib.Analysis.Real.Pi.Bounds

/-! # The box around a circle

`geoBoundsFromRadiusMeters` in exact arithmetic, next to `distanceInMeters`. A degree
of the box is a little more than a degree of the sphere, so that the box is a little
less than its circle.
-/

namespace Feca.Geo

open Geometry Real

noncomputable def EARTH_RADIUS_METERS : ℝ := 6371000

noncomputable def METERS_PER_DEGREE_LAT : ℝ := 111320

noncomputable def toRadians (value : ℝ) : ℝ := value * π / 180

noncomputable def distanceInMeters (aLat aLng bLat bLng : ℝ) : ℝ :=
  let dLat := toRadians (bLat - aLat)
  let dLng := toRadians (bLng - aLng)
  let lat1 := toRadians aLat
  let lat2 := toRadians bLat
  let haversine := sin (dLat / 2) ^ 2 + cos lat1 * cos lat2 * sin (dLng / 2) ^ 2
  2 * EARTH_RADIUS_METERS * arcsin √haversine

structure GeoBounds where
  minLat : ℝ
  maxLat : ℝ
  minLng : ℝ
  maxLng : ℝ

structure GeoCoordinate where
  lat : ℝ
  lng : ℝ

noncomputable def geoBoundsFromRadiusMeters (lat lng radiusMeters : ℝ) : GeoBounds :=
  let latDelta := radiusMeters / METERS_PER_DEGREE_LAT
  let latRadians := lat * π / 180
  let lngDelta := radiusMeters / (METERS_PER_DEGREE_LAT * max (cos latRadians) (1 / 1000000))
  { minLat := lat - latDelta
    maxLat := lat + latDelta
    minLng := lng - lngDelta
    maxLng := lng + lngDelta }

/-- `placeBoundingBoxWhere`. -/
def GeoBounds.Contains (bounds : GeoBounds) (place : GeoCoordinate) : Prop :=
  bounds.minLat ≤ place.lat ∧ place.lat ≤ bounds.maxLat ∧
    bounds.minLng ≤ place.lng ∧ place.lng ≤ bounds.maxLng

/-! ## Coordinates -/

/-- The box of all coordinates there are. -/
def allCoordinates : GeoBounds := ⟨-90, 90, -180, 180⟩

def GeoBounds.InRange (bounds : GeoBounds) : Prop :=
  -90 ≤ bounds.minLat ∧ bounds.maxLat ≤ 90 ∧ -180 ≤ bounds.minLng ∧ bounds.maxLng ≤ 180

/-- The box holds every place the exact filter would keep. -/
def ContainsCircle (lat lng radiusMeters : ℝ) : Prop :=
  ∀ place, allCoordinates.Contains place →
    distanceInMeters lat lng place.lat place.lng ≤ radiusMeters →
    (geoBoundsFromRadiusMeters lat lng radiusMeters).Contains place

theorem toRadians_sub (a b : ℝ) : toRadians (b - a) = toRadians b - toRadians a := by
  unfold toRadians
  ring

theorem abs_toRadians (a : ℝ) : |toRadians a| = |a| * π / 180 := by
  rw [toRadians, abs_div, abs_mul, abs_of_pos pi_pos, abs_of_pos (by norm_num : (0 : ℝ) < 180)]

theorem distanceInMeters_eq (aLat aLng bLat bLng : ℝ) : distanceInMeters aLat aLng bLat bLng =
    EARTH_RADIUS_METERS *
      centralAngle (toRadians aLat) (toRadians aLng) (toRadians bLat) (toRadians bLng) := by
  rw [← haversine_formula]
  simp only [distanceInMeters, toRadians_sub]
  ring

/-- A degree of the sphere, in metres. -/
noncomputable def metersPerDegree : ℝ := EARTH_RADIUS_METERS * π / 180

theorem metersPerDegree_pos : 0 < metersPerDegree := by
  unfold metersPerDegree EARTH_RADIUS_METERS
  positivity

/-- What the box takes for a degree is more. -/
theorem metersPerDegree_lt : metersPerDegree < METERS_PER_DEGREE_LAT := by
  unfold metersPerDegree EARTH_RADIUS_METERS METERS_PER_DEGREE_LAT
  linarith [pi_lt_d4]

theorem distanceInMeters_meridian {lat lng lat' : ℝ} (h : |lat' - lat| ≤ 180) :
    distanceInMeters lat lng lat' lng = metersPerDegree * |lat' - lat| := by
  have hangle : |toRadians lat' - toRadians lat| = |lat' - lat| * π / 180 := by
    rw [← toRadians_sub, abs_toRadians]
  have hle : |lat' - lat| * π / 180 ≤ π := by
    have := mul_le_mul_of_nonneg_right h pi_pos.le
    linarith
  rw [distanceInMeters_eq, centralAngle_meridian (hangle ▸ hle), hangle, metersPerDegree]
  ring

theorem distanceInMeters_equator {lng lng' : ℝ} (h : |lng' - lng| ≤ 180) :
    distanceInMeters 0 lng 0 lng' = metersPerDegree * |lng' - lng| := by
  have hangle : |toRadians lng' - toRadians lng| = |lng' - lng| * π / 180 := by
    rw [← toRadians_sub, abs_toRadians]
  have hle : |lng' - lng| * π / 180 ≤ π := by
    have := mul_le_mul_of_nonneg_right h pi_pos.le
    linarith
  have hzero : toRadians 0 = 0 := by simp [toRadians]
  rw [distanceInMeters_eq, hzero, centralAngle_equator (hangle ▸ hle), hangle, metersPerDegree]
  ring

/-! ## A circle that is a point -/

theorem toRadians_abs_lt {lat : ℝ} (h₁ : -90 < lat) (h₂ : lat < 90) : |toRadians lat| < π / 2 := by
  rw [abs_toRadians]
  have := mul_lt_mul_of_pos_right (abs_lt.mpr ⟨h₁, h₂⟩) pi_pos
  linarith

theorem toRadians_abs_le {lat : ℝ} (h₁ : -90 ≤ lat) (h₂ : lat ≤ 90) : |toRadians lat| ≤ π / 2 := by
  rw [abs_toRadians]
  have := mul_le_mul_of_nonneg_right (abs_le.mpr ⟨h₁, h₂⟩) pi_pos.le
  linarith

theorem toRadians_injective {a b : ℝ} (h : toRadians a = toRadians b) : a = b := by
  unfold toRadians at h
  have hmul : a * π = b * π := by linarith
  exact mul_right_cancel₀ pi_pos.ne' hmul

/-- No distance is between two places that differ by full turns only. -/
theorem distanceInMeters_nonpos_iff {lat lng lat' lng' : ℝ} (hlat : -90 < lat ∧ lat < 90)
    (hlat' : -90 ≤ lat' ∧ lat' ≤ 90) :
    distanceInMeters lat lng lat' lng' ≤ 0 ↔ lat' = lat ∧ ∃ n : ℤ, lng' - lng = n * 360 := by
  have hradius : 0 < EARTH_RADIUS_METERS := by
    unfold EARTH_RADIUS_METERS
    norm_num
  rw [distanceInMeters_eq, ← not_lt, mul_pos_iff_of_pos_left hradius, not_lt,
    centralAngle_nonpos_iff (toRadians_abs_lt hlat.1 hlat.2) (toRadians_abs_le hlat'.1 hlat'.2),
    ← toRadians_sub]
  have hturn : ∀ n : ℤ, (n : ℝ) * (2 * π) = toRadians (lng' - lng) ↔ lng' - lng = n * 360 := by
    intro n
    unfold toRadians
    constructor
    · intro h
      have : (lng' - lng) * π = n * 360 * π := by linarith
      exact mul_right_cancel₀ pi_pos.ne' this
    · intro h
      rw [h]
      ring
  simp only [hturn]
  exact and_congr_left' ⟨toRadians_injective, congrArg toRadians⟩

theorem geoBoundsFromRadiusMeters_zero (lat lng : ℝ) :
    geoBoundsFromRadiusMeters lat lng 0 = ⟨lat, lat, lng, lng⟩ := by
  simp [geoBoundsFromRadiusMeters]

/-- On the antimeridian the place has a second longitude. -/
theorem containsCircle_zero_iff {lat lng : ℝ} (hlat : -90 < lat ∧ lat < 90)
    (hlng : -180 ≤ lng ∧ lng ≤ 180) : ContainsCircle lat lng 0 ↔ |lng| ≠ 180 := by
  unfold ContainsCircle
  rw [geoBoundsFromRadiusMeters_zero]
  constructor
  · intro h habs
    have hsecond : distanceInMeters lat lng lat (-lng) ≤ 0 := by
      rw [distanceInMeters_nonpos_iff hlat ⟨hlat.1.le, hlat.2.le⟩]
      refine ⟨rfl, ?_⟩
      rcases (abs_eq (by norm_num : (0 : ℝ) ≤ 180)).mp habs with rfl | rfl
      · exact ⟨-1, by norm_num⟩
      · exact ⟨1, by norm_num⟩
    obtain ⟨-, -, hmin, hmax⟩ := h ⟨lat, -lng⟩
      ⟨hlat.1.le, hlat.2.le, by dsimp only [allCoordinates]; linarith,
        by dsimp only [allCoordinates]; linarith⟩ hsecond
    dsimp only at hmin hmax
    have hzero : lng = 0 := by linarith
    rw [hzero, abs_zero] at habs
    norm_num at habs
  · rintro habs place ⟨hminLat, hmaxLat, hminLng, hmaxLng⟩ hdistance
    obtain ⟨hsame, n, hn⟩ := (distanceInMeters_nonpos_iff hlat ⟨hminLat, hmaxLat⟩).mp hdistance
    have hlt : |lng| < 180 := lt_of_le_of_ne (abs_le.mpr hlng) habs
    obtain ⟨hlt₁, hlt₂⟩ := abs_lt.mp hlt
    dsimp only [allCoordinates] at hminLng hmaxLng
    have hn₁ : (n : ℝ) < 1 := by linarith
    have hn₂ : (-1 : ℝ) < n := by linarith
    have hzero : n = 0 := by
      have h₁ : n < 1 := by exact_mod_cast hn₁
      have h₂ : -1 < n := by exact_mod_cast hn₂
      omega
    rw [hzero, Int.cast_zero, zero_mul] at hn
    exact ⟨hsame.ge, hsame.le, by linarith, by linarith⟩

/-! ## A circle that is not -/

section circle

variable {lat lng radiusMeters : ℝ}

theorem lngDelta_nonneg (hr : 0 ≤ radiusMeters) : 0 ≤ radiusMeters /
    (METERS_PER_DEGREE_LAT * max (cos (lat * π / 180)) (1 / 1000000)) := by
  unfold METERS_PER_DEGREE_LAT
  have : (0 : ℝ) < max (cos (lat * π / 180)) (1 / 1000000) := lt_max_of_lt_right (by norm_num)
  positivity

/-- The circle is wider than the box, in degrees. -/
theorem latDelta_lt (hr : 0 < radiusMeters) :
    radiusMeters / METERS_PER_DEGREE_LAT < radiusMeters / metersPerDegree :=
  div_lt_div_of_pos_left hr metersPerDegree_pos metersPerDegree_lt

/-- Due north or south, between the edge of the box and that of the circle. -/
theorem not_containsCircle_of_meridian {lat' step : ℝ} (hlat : -90 < lat ∧ lat < 90)
    (hlng : -180 ≤ lng ∧ lng ≤ 180) (hlat' : -90 ≤ lat' ∧ lat' ≤ 90) (hstep : |lat' - lat| = step)
    (hout : radiusMeters / METERS_PER_DEGREE_LAT < step)
    (hin : step ≤ radiusMeters / metersPerDegree) : ¬ ContainsCircle lat lng radiusMeters := by
  intro h
  have hturn : |lat' - lat| ≤ 180 := abs_le.mpr ⟨by linarith, by linarith⟩
  have hdistance : distanceInMeters lat lng lat' lng ≤ radiusMeters := by
    rw [distanceInMeters_meridian hturn, hstep, mul_comm]
    exact (le_div_iff₀ metersPerDegree_pos).mp hin
  obtain ⟨hmin, hmax, -, -⟩ := h ⟨lat', lng⟩ ⟨hlat'.1, hlat'.2, hlng⟩ hdistance
  dsimp only [geoBoundsFromRadiusMeters] at hmin hmax
  have hle : |lat' - lat| ≤ radiusMeters / METERS_PER_DEGREE_LAT :=
    abs_le.mpr ⟨by linarith, by linarith⟩
  exact absurd (hstep ▸ hle) (not_le.mpr hout)

/-- The same along the equator. -/
theorem not_containsCircle_of_equator {lng' step : ℝ} (hlng' : -180 ≤ lng' ∧ lng' ≤ 180)
    (hstep : |lng' - lng| = step) (hturn : step ≤ 180)
    (hout : radiusMeters / METERS_PER_DEGREE_LAT < step)
    (hin : step ≤ radiusMeters / metersPerDegree) : ¬ ContainsCircle 0 lng radiusMeters := by
  intro h
  have hdistance : distanceInMeters 0 lng 0 lng' ≤ radiusMeters := by
    rw [distanceInMeters_equator (hstep ▸ hturn), hstep, mul_comm]
    exact (le_div_iff₀ metersPerDegree_pos).mp hin
  obtain ⟨-, -, hmin, hmax⟩ := h ⟨0, lng'⟩
    ⟨by norm_num [allCoordinates], by norm_num [allCoordinates], hlng'⟩ hdistance
  have hcos : max (cos (0 * π / 180)) (1 / 1000000) = 1 := by
    rw [zero_mul, zero_div, cos_zero]
    norm_num
  simp only [geoBoundsFromRadiusMeters, hcos, mul_one] at hmin hmax
  have hle : |lng' - lng| ≤ radiusMeters / METERS_PER_DEGREE_LAT :=
    abs_le.mpr ⟨by linarith, by linarith⟩
  exact absurd (hstep ▸ hle) (not_le.mpr hout)

theorem abs_forth {x step : ℝ} (h : 0 < step) : |x + step - x| = step := by
  rw [add_sub_cancel_left, abs_of_pos h]

theorem abs_back {x step : ℝ} (h : 0 < step) : |x - step - x| = step := by
  rw [sub_sub_cancel_left, abs_neg, abs_of_pos h]

/-- The box of a radius leaves a place of the circle out: north or south of it or, where
it reaches both poles, east or west. -/
theorem not_containsCircle (hlat : -90 < lat ∧ lat < 90) (hr : 0 < radiusMeters)
    (hbox : (geoBoundsFromRadiusMeters lat lng radiusMeters).InRange) :
    ¬ ContainsCircle lat lng radiusMeters := by
  have hwide := latDelta_lt hr
  have hlngDelta := @lngDelta_nonneg lat radiusMeters hr.le
  obtain ⟨hminLat, hmaxLat, hminLng, hmaxLng⟩ := hbox
  dsimp only [geoBoundsFromRadiusMeters] at hminLat hmaxLat hminLng hmaxLng
  have hlng : -180 ≤ lng ∧ lng ≤ 180 := ⟨by linarith, by linarith⟩
  have hpos : 0 < radiusMeters / METERS_PER_DEGREE_LAT := by
    unfold METERS_PER_DEGREE_LAT
    positivity
  by_cases hnorth : lat + radiusMeters / METERS_PER_DEGREE_LAT < 90
  · have hout := lt_min hwide (lt_sub_iff_add_lt'.mpr hnorth)
    have hpole := min_le_right (radiusMeters / metersPerDegree) (90 - lat)
    exact not_containsCircle_of_meridian hlat hlng ⟨by linarith, by linarith⟩
      (abs_forth (hpos.trans hout)) hout (min_le_left _ _)
  by_cases hsouth : -90 < lat - radiusMeters / METERS_PER_DEGREE_LAT
  · have hout := lt_min hwide (by linarith : radiusMeters / METERS_PER_DEGREE_LAT < lat + 90)
    have hpole := min_le_right (radiusMeters / metersPerDegree) (lat + 90)
    exact not_containsCircle_of_meridian hlat hlng ⟨by linarith, by linarith⟩
      (abs_back (hpos.trans hout)) hout (min_le_left _ _)
  -- the box is the whole meridian, of an origin on the equator
  have hzero : lat = 0 := by linarith
  subst hzero
  have hout := lt_min hwide (by linarith : radiusMeters / METERS_PER_DEGREE_LAT < 180)
  have hturn := min_le_right (radiusMeters / metersPerDegree) 180
  rcases le_or_gt lng 0 with heast | hwest
  · exact not_containsCircle_of_equator ⟨by linarith, by linarith⟩ (abs_forth (hpos.trans hout))
      hturn hout (min_le_left _ _)
  · exact not_containsCircle_of_equator ⟨by linarith, by linarith⟩ (abs_back (hpos.trans hout))
      hturn hout (min_le_left _ _)

end circle

/-! ## The box and the circle -/

/-- The box contains its circle only where that is the origin alone, and has one longitude. -/
theorem containsCircle_iff {lat lng radiusMeters : ℝ} (hlat : -90 < lat ∧ lat < 90)
    (hradius : 0 ≤ radiusMeters)
    (hbox : (geoBoundsFromRadiusMeters lat lng radiusMeters).InRange) :
    ContainsCircle lat lng radiusMeters ↔ radiusMeters = 0 ∧ |lng| ≠ 180 := by
  rcases hradius.eq_or_lt with rfl | hr
  · rw [geoBoundsFromRadiusMeters_zero] at hbox
    rw [containsCircle_zero_iff hlat hbox.2.2, eq_self, true_and]
  · have hnot := not_containsCircle hlat hr hbox
    exact ⟨fun h => absurd h hnot, fun h => absurd h.1 hr.ne'⟩

theorem origin_contains_itself : ContainsCircle 0 0 0 := by
  refine (containsCircle_iff ⟨by norm_num, by norm_num⟩ le_rfl ?_).mpr ⟨rfl, by norm_num⟩
  rw [geoBoundsFromRadiusMeters_zero]
  exact ⟨by norm_num, by norm_num, by norm_num, by norm_num⟩

/-- A degree north of the origin, 111 194.93 metres away, and the box of 111 200 metres. -/
theorem degree_north_is_left_out : (geoBoundsFromRadiusMeters 0 0 111200).InRange ∧
    distanceInMeters 0 0 1 0 ≤ 111200 ∧
    ¬ (geoBoundsFromRadiusMeters 0 0 111200).Contains ⟨1, 0⟩ := by
  have hcos : max (cos (0 * π / 180)) (1 / 1000000) = 1 := by
    rw [zero_mul, zero_div, cos_zero]
    norm_num
  have hbounds : geoBoundsFromRadiusMeters 0 0 111200 =
      ⟨-(1390 / 1391.5), 1390 / 1391.5, -(1390 / 1391.5), 1390 / 1391.5⟩ := by
    simp only [geoBoundsFromRadiusMeters, hcos, METERS_PER_DEGREE_LAT]
    norm_num
  rw [hbounds]
  refine ⟨⟨by norm_num, by norm_num, by norm_num, by norm_num⟩, ?_, ?_⟩
  · rw [distanceInMeters_meridian (by norm_num), metersPerDegree, EARTH_RADIUS_METERS, sub_zero,
      abs_one]
    linarith [pi_lt_d4]
  · rintro ⟨-, hmax, -⟩
    norm_num at hmax

end Feca.Geo
